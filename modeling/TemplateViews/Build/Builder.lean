import TemplateViews.Build.Names
import TemplateViews.Build.Report
import TemplateViews.Config.Settings
import TemplateViews.Failure

/-! Builds. A build writes the source, runs the compiler on it and removes the source
again; errors in the compiler's report or its exit status refuse the library, which is
then removed as well. -/

namespace TemplateViews

structure Builder where
  program : Path
  edition : String := "2021"
  searchDirs : List Path := []
  deriving DecidableEq, Repr

def Settings.builder (settings : Settings) : Builder :=
  ⟨settings.program, settings.edition, settings.searchDirs⟩

/-- A library that was built. Warnings do not fail a build. -/
structure Built where
  library : Path
  warnings : List Diagnostic
  deriving DecidableEq, Repr

namespace Builder

/-- The compiler's arguments: the source comes last, behind all places where modules lie. -/
def arguments (builder : Builder) (names : BuildNames) (links : Links) : List String :=
  ["--crate-type", "cdylib", "--crate-name", names.crateName, "--edition", builder.edition,
    "--error-format=json", "-C", "debuginfo=0", "-o", names.library.text] ++
  links.arguments ++
  builder.searchDirs.flatMap (fun dir => ["-L", dir.text]) ++
  [names.source.text]

def writeSource (names : BuildNames) (source : ViewSource) (files : Files) :
    Except (SystemError × Files) Files :=
  files.write names.source (Utf8.encode source.code.toList)

/-- What stands for the errors of a compiler that failed and reported none. -/
def exitDiagnostic (status : ExitStatus) (report : List Char) : Diagnostic where
  severity := .error
  message := "rustc exited with " ++ status.text ++ ": " ++ String.ofList (trim report)

/-- The warnings of a run that succeeded, or the errors of one that did not. -/
def verdict (names : BuildNames) (source : ViewSource) (status : ExitStatus)
    (stderr : List UInt8) : Except (List Diagnostic) (List Diagnostic) :=
  let report := Utf8.decodeLossy stderr
  let diagnostics := readReport source names.source report
  let errors := diagnostics.filter Diagnostic.isError
  if status.isSuccess && errors.isEmpty then
    .ok (diagnostics.filter fun d => !d.isError)
  else if errors.isEmpty then .error [exitDiagnostic status report]
  else .error errors

/-- The last step: a library stays only if the build succeeded. -/
def settle (names : BuildNames) (verdict : Except (List Diagnostic) (List Diagnostic))
    (files : Files) : Except Failure Built × Files :=
  match verdict with
  | .error errors => (.error (.rejected errors), files.discard names.library)
  | .ok warnings =>
    if files.holds names.library then (.ok ⟨names.library, warnings⟩, files)
    else (.error (.toolchain (.noLibrary names.library)), files)

def build (builder : Builder) (toolchain : Toolchain) (names : BuildNames) (links : Links)
    (source : ViewSource) (host : Host) : Except Failure Built × Host :=
  match writeSource names source host.files with
  | .error (e, files) => (.error (.system e), { host with files := files })
  | .ok files =>
    let arguments := builder.arguments names links
    match toolchain.start builder.program arguments files with
    | .error e =>
      (.error (.toolchain (.notStarted builder.program e)),
        { host with files := files.discard names.source })
    | .ok done =>
      let (result, after) :=
        settle names (verdict names source done.status done.stderr)
          (done.files.discard names.source)
      (result, ⟨after, host.runs ++ [⟨builder.program, arguments, files⟩]⟩)

end Builder

end TemplateViews
