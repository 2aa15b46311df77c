import TemplateViews.Command.Line
import TemplateViews.Proofs.Compiler.Building
import TemplateViews.Proofs.Outcome

/-! Stages of a run. The settings, the purge and the text of the template come first, whatever is
asked for; then a run prints a source, or it builds a view and shows it. It exits well exactly if
each of its stages succeeds. -/

namespace TemplateViews

namespace Arguments

/-- What a run has at hand when it comes to prepare its template. -/
structure Begins (arguments : Arguments) (environment : Environment) (files : Files)
    (settings : Settings) (catalogue : Catalogue) (cleaned : Files) (template : String) : Prop where
  configure : arguments.configure environment files = .ok (settings, catalogue)
  clean : arguments.clean settings files = .ok cleaned
  read : cleaned.readText arguments.template = .ok template

/-- How a run comes to its template, or where it ends before. -/
inductive Course (arguments : Arguments) (services : Services) (host : Host) : Progress → Prop
  | unpurged (failure : CommandFailure) : Course arguments services host ⟨"", some failure, host⟩
  | unread (failure : CommandFailure) {settings : Settings} {catalogue : Catalogue}
      {cleaned : Files}
      (hconfigured : arguments.configure services.environment host.files =
        .ok (settings, catalogue))
      (hcleaned : arguments.clean settings host.files = .ok cleaned) :
    Course arguments services host ⟨"", some failure, { host with files := cleaned }⟩
  | begun {settings : Settings} {catalogue : Catalogue} {cleaned : Files} {template : String}
      (h : arguments.Begins services.environment host.files settings catalogue cleaned template) :
    Course arguments services host (arguments.process services
      (Compiler.ofSettings settings catalogue) template { host with files := cleaned })

end Arguments

namespace View

variable {linker : Linker} {files : Files} {library : Path} {expected : String} {view : View}

end View

namespace Compiler

variable {compiler : Compiler} {toolchain : Toolchain} {linker : Linker} {token : Token}
  {template : String} {prepared : Prepared} {host after : Host} {view : View}

end Compiler

namespace Arguments

section Stages

variable {arguments : Arguments} {services : Services} {host after : Host} {settings : Settings}
  {catalogue : Catalogue} {cleaned : Files} {template stdout : String} {prepared : Prepared}

end Stages

end Arguments

end TemplateViews
