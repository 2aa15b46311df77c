import Mathlib.Logic.Function.Iterate
import TemplateViews.Compiler

/-! The steps of a compilation. Each of them does one thing to the files, and five of them
make a compilation. -/

namespace TemplateViews

/-- How far a compilation has come. -/
inductive Stage
  | prepared (view : Prepared)
  | written (view : Prepared)
  /-- The toolchain did not start. -/
  | refused (error : SystemError)
  | compiled (view : Prepared) (status : ExitStatus) (stderr : List UInt8)
  | cleared (verdict : Except (List Diagnostic) (List Diagnostic))
  | built (warnings : List Diagnostic)
  | ended (result : Except Failure View)

namespace Compiler

variable (compiler : Compiler) (toolchain : Toolchain) (linker : Linker) (token : Token)

def firstStage (template : String) : Stage :=
  match compiler.prepareText template with
  | .error failure => .ended (.error failure)
  | .ok view => .prepared view

/-- One step: to write the source, to run the toolchain, to remove the source, to remove the
library or look for it, or to load it. -/
def step : Stage × Host → Stage × Host
  | (.prepared view, host) =>
    match Builder.writeSource (compiler.names token) view.source host.files with
    | .error (e, files) => (.ended (.error (.system e)), { host with files })
    | .ok files => (.written view, { host with files })
  | (.written view, host) =>
    let program := compiler.settings.program
    let arguments := compiler.settings.builder.arguments (compiler.names token) view.links
    match toolchain.start program arguments host.files with
    | .error e => (.refused e, host)
    | .ok done =>
      (.compiled view done.status done.stderr,
        ⟨done.files, host.runs ++ [⟨program, arguments, host.files⟩]⟩)
  | (.refused e, host) =>
    (.ended (.error (.toolchain (.notStarted compiler.settings.program e))),
      { host with files := host.files.discard (compiler.names token).source })
  | (.compiled view status stderr, host) =>
    (.cleared (Builder.verdict (compiler.names token) view.source status stderr),
      { host with files := host.files.discard (compiler.names token).source })
  | (.cleared verdict, host) =>
    match Builder.settle (compiler.names token) verdict host.files with
    | (.error failure, files) => (.ended (.error failure), { host with files })
    | (.ok built, files) => (.built built.warnings, { host with files })
  | (.built _, host) =>
    (.ended (View.load linker host.files (compiler.names token).library compiler.viewName), host)
  | (.ended result, host) => (.ended result, host)

variable {compiler toolchain linker token}

theorem iterate_step_ended (result : Except Failure View) (host : Host) (n : Nat) :
    (compiler.step toolchain linker token)^[n] (.ended result, host) = (.ended result, host) :=
  Function.iterate_fixed rfl n

theorem iterate_step_prepared (view : Prepared) (host : Host) :
    (compiler.step toolchain linker token)^[5] (.prepared view, host) =
      (.ended (compiler.finish toolchain linker token view host).1,
        (compiler.finish toolchain linker token view host).2) := by
  unfold finish Builder.build
  simp only [Function.iterate_succ_apply]
  unfold step
  dsimp only [Settings.builder]
  cases Builder.writeSource (compiler.names token) view.source host.files with
  | error e => rfl
  | ok files =>
    dsimp only
    cases toolchain.start compiler.settings.program _ files with
    | error e => rfl
    | ok done =>
      dsimp only
      cases Builder.verdict (compiler.names token) view.source done.status done.stderr with
      | error errors => rfl
      | ok warnings =>
        dsimp only [Builder.settle]
        cases (done.files.discard (compiler.names token).source).holds
            (compiler.names token).library with
        | true => rfl
        | false => rfl

/-- A compilation that takes its steps alone has ended by the fifth, as the compiler ends it. -/
theorem iterate_step_firstStage (template : String) (host : Host) {n : Nat} (hn : 5 ≤ n) :
    (compiler.step toolchain linker token)^[n] (compiler.firstStage template, host) =
      (.ended (compiler.compileText toolchain linker token template host).1,
        (compiler.compileText toolchain linker token template host).2) := by
  obtain ⟨n, rfl⟩ := Nat.exists_eq_add_of_le' hn
  rw [firstStage, compileText, compile, prepareText]
  cases hprepare : compiler.prepare (Scanned.ofText template) with
  | error failure => exact iterate_step_ended _ _ _
  | ok view =>
    dsimp only
    rw [Function.iterate_add_apply, iterate_step_prepared, iterate_step_ended]

end Compiler

end TemplateViews
