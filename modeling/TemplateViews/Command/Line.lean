import TemplateViews.Command.Arguments
import TemplateViews.Build.Purge
import TemplateViews.Compiler
import TemplateViews.Config.File

/-! The command line: compiles a template, prints the name of the view and on request
its source or its page. The stages run in a fixed order and the first failure ends the
run; what was printed before it stays. -/

namespace TemplateViews

/-- What a run of the command depends on besides its arguments and files. -/
structure Services where
  environment : Environment
  toolchain : Toolchain
  linker : Linker
  token : Token

/-- A failure with the stage that it came up in, where the failure does not tell it. -/
inductive CommandFailure
  | failure (cause : Failure)
  | purging (dir : Path) (error : SystemError)
  | reading (template : Path) (error : SystemError)
  deriving DecidableEq, Repr

def CommandFailure.report : CommandFailure → String
  | .failure (.rejected diagnostics) =>
    "Compilation failed:\n" ++
      String.join (diagnostics.map fun d => "  " ++ d.text ++ "\n")
  | .failure cause => "Compilation failed: " ++ cause.messageWithCause ++ "\n"
  | .purging dir error =>
    "Compilation failed: purging " ++ dir.text ++ ": " ++ error.message ++ "\n"
  | .reading template error =>
    "Compilation failed: reading " ++ template.text ++ ": " ++ error.message ++ "\n"

/-- How far a run came: what it printed, and why it ended if it failed. -/
structure Progress where
  printed : String
  failure : Option CommandFailure
  host : Host
  deriving DecidableEq, Repr

structure Outcome where
  exit : Nat
  stdout : String
  stderr : String
  deriving DecidableEq, Repr

namespace Arguments

/-- The settings and the catalogue, from the manifest if there is one. -/
def configure (arguments : Arguments) (environment : Environment) (files : Files) :
    Except CommandFailure (Settings × Catalogue) :=
  let settings := Settings.ofEnvironment environment
  match arguments.manifest with
  | none => .ok (settings, Catalogue.standard)
  | some p =>
    match Manifest.ofFile files p with
    | .error cause => .error (.failure cause)
    | .ok manifest => .ok (manifest.adjust settings, manifest.catalogue)

def clean (arguments : Arguments) (settings : Settings) (files : Files) :
    Except CommandFailure Files :=
  if arguments.has .purge then
    match files.purge settings.scratchDir settings.stem with
    | .error e => .error (.purging settings.scratchDir e)
    | .ok (_, files) => .ok files
  else .ok files

def summary (arguments : Arguments) (view : View) : String :=
  view.name ++ "\n" ++
    (if arguments.has .verbose then
      "  Library: " ++ view.library.text ++ "\n" ++
        (view.model.map fun type => "  Model: " ++ type ++ "\n").getD "" ++
        (view.handler.map fun type => "  Handler: " ++ type ++ "\n").getD ""
    else "")

def present (arguments : Arguments) (view : View) (host : Host) : Progress :=
  let summary := arguments.summary view
  if arguments.has .render then
    match view.page with
    | .error cause => ⟨summary, some (.failure cause), host⟩
    | .ok page => ⟨summary ++ page, none, host⟩
  else ⟨summary, none, host⟩

def process (arguments : Arguments) (services : Services) (compiler : Compiler) (template : String)
    (host : Host) : Progress :=
  if arguments.has .emitSource then
    match compiler.generateSource template with
    | .error cause => ⟨"", some (.failure cause), host⟩
    | .ok source => ⟨source.code, none, host⟩
  else
    match compiler.compileText services.toolchain services.linker services.token template host with
    | (.error cause, host) => ⟨"", some (.failure cause), host⟩
    | (.ok view, host) => arguments.present view host

def execute (arguments : Arguments) (services : Services) (host : Host) : Progress :=
  match arguments.configure services.environment host.files with
  | .error failure => ⟨"", some failure, host⟩
  | .ok (settings, catalogue) =>
    match arguments.clean settings host.files with
    | .error failure => ⟨"", some failure, host⟩
    | .ok files =>
      let host := { host with files := files }
      match files.readText arguments.template with
      | .error e => ⟨"", some (.reading arguments.template e), host⟩
      | .ok template =>
        arguments.process services (Compiler.ofSettings settings catalogue) template host

end Arguments

def Progress.outcome (progress : Progress) : Outcome :=
  match progress.failure with
  | none => ⟨0, progress.printed, ""⟩
  | some failure => ⟨1, progress.printed, failure.report⟩

def helpText : String := "\n".intercalate [
  "simpleview compiler - builds view templates into loadable Rust libraries",
  "",
  "Usage: simpleviewc [OPTIONS] <TEMPLATE>",
  "",
  "Arguments:",
  "  <TEMPLATE>  Template file",
  "",
  "Options:",
  "  -m, --modules <FILE>  JSON manifest of modules templates may reference",
  "      --emit-source     Print the generated Rust source and exit",
  "      --render          Render the compiled view (templates without @model/@handler only)",
  "      --purge           Delete stale artifacts from the temp directory before compiling",
  "  -v, --verbose         Enable verbose output",
  "  -h, --help            Print help",
  "  -V, --version         Print version",
  ""]

def versionText : String := "simpleviewc 0.1.0\n"

def usageText : String :=
  "Usage: simpleviewc [OPTIONS] <TEMPLATE>\n\nFor more information, try '--help'.\n"

def Request.answer (request : Request) (services : Services) (host : Host) : Outcome × Host :=
  match request with
  | .run arguments =>
    let progress := arguments.execute services host
    (progress.outcome, progress.host)
  | .help => (⟨0, helpText, ""⟩, host)
  | .version => (⟨0, versionText, ""⟩, host)
  | .misuse => (⟨2, "", usageText⟩, host)

end TemplateViews
