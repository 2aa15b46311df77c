import TemplateViews.Build.Toolchain
import TemplateViews.View.Load

/-! Scripts: toolchains and pages that do what a script says, to try out builds without
a compiler. -/

namespace TemplateViews

/-- What a scripted run puts where the library should be. -/
inductive Product
  | nothing
  | file (content : List UInt8)
  | directory
  deriving DecidableEq, Repr

structure Script where
  /-- The path under which the scripted program stands. -/
  program : Path
  product : Product := .nothing
  stderr : List UInt8 := []
  status : ExitStatus := .code 0
  keepsSource : Bool := true
  deriving DecidableEq, Repr

namespace Script

/-- Why any other program does not start. What is there is no program; a name without
a slash is looked for in other places, unless it is too long for a name, and only
directories have a name of dots there. -/
def refusal (files : Files) (program : Path) : SystemError :=
  if '/' ∈ program.text.toList then
    match files.find program with
    | .ok _ => .permissionDenied
    | .error e => e
  else if maxNameLength < (Utf8.encode program.text.toList).length then .nameTooLong
  else if program.text = "." ∨ program.text = ".." then .permissionDenied
  else .notFound

def output? : List String → Option Path
  | option :: value :: rest =>
    if option = "-o" then some ⟨value⟩ else output? (value :: rest)
  | _ => none

def put (product : Product) (p : Path) (files : Files) : Files :=
  match product with
  | .nothing => files
  | .file content =>
    match files.write p content with
    | .ok files => files
    | .error (_, files) => files
  | .directory =>
    match files.locate p with
    | .ok place => if (files.node? place).isNone then files.put place .directory else files
    | .error _ => files

/-- The script's error text, in which the source's path stands for its mark. -/
def errorText (script : Script) (source : String) : List UInt8 :=
  match Utf8.decode script.stderr with
  | .ok cs => Utf8.encode ((String.ofList cs).replace "\x7bSRC\x7d" source).toList
  | .error _ => script.stderr

def perform (script : Script) (arguments : List String) (files : Files) : Completion :=
  let source := arguments.getLast?.getD ""
  let files := match output? arguments with
    | some p => put script.product p files
    | none => files
  ⟨script.status, script.errorText source,
    if script.keepsSource then files else files.discard ⟨source⟩⟩

def toolchain (script : Script) : Toolchain where
  run program arguments files :=
    if program = script.program then .ok (script.perform arguments files)
    else .error (refusal files program)

end Script

/-- A page that is always the same, once the values it needs are there. -/
structure PageScript where
  fragments : List (List UInt8)
  status : Int := Status.ok.code
  needsModel : Bool := false
  needsHandler : Bool := false
  deriving DecidableEq, Repr

def PageScript.render (script : PageScript) : RenderFunction := fun model handler =>
  if script.needsModel && !model then ⟨[], Status.missingModel.code⟩
  else if script.needsHandler && !handler then ⟨[], Status.missingHandler.code⟩
  else ⟨script.fragments, script.status⟩

end TemplateViews
