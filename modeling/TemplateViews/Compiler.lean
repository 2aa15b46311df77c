import TemplateViews.Build.Builder
import TemplateViews.Source.Crate
import TemplateViews.Template.Cell
import TemplateViews.Template.Stream
import TemplateViews.View.Load

/-! Compilers turn templates into views: they resolve what a template declares, collect
the modules to link, generate the source, build it and load the view. Everything up to
the source needs neither files nor a toolchain. -/

namespace TemplateViews

/-- Generates sources; `name` is the name that the views it generates are said to have. -/
structure Engine where
  generate : Inputs → String → Except MarkupError ViewSource
  name : String

def Engine.forName (name : ViewName) : Engine := ⟨TemplateViews.generate name, name.qualified⟩

structure Compiler where
  settings : Settings
  catalogue : Catalogue
  engine : Engine

structure Resolved where
  model : Option TypeTree
  handler : Option TypeTree

def Resolved.inputs (r : Resolved) : Inputs :=
  ⟨r.model.map TypeTree.text, r.handler.map TypeTree.text⟩

structure Prepared where
  source : ViewSource
  links : Links
  deriving DecidableEq, Repr

def Declaration.diagnostic (d : Declaration) (e : TypeError) : Diagnostic where
  severity := .error
  message :=
    if d.typeText = "" then "`" ++ d.keyword.token ++ "` " ++ e.message
    else "cannot resolve `" ++ d.keyword.token ++ " " ++ d.typeText ++ "`: " ++ e.message
  position := some (.template d.line)

namespace Catalogue

def resolveDeclaration (catalogue : Catalogue) :
    Option Declaration → Except Diagnostic (Option TypeTree)
  | none => .ok none
  | some d =>
    match catalogue.resolve d.typeText with
    | .ok tree => .ok (some tree)
    | .error e => .error (d.diagnostic e)

/-- Resolves what is declared; errors of both declarations are reported together. -/
def resolveDeclared (catalogue : Catalogue) (d : Declared) :
    Except (List Diagnostic) Resolved :=
  match catalogue.resolveDeclaration d.model, catalogue.resolveDeclaration d.handler with
  | .ok model, .ok handler => .ok ⟨model, handler⟩
  | .error e, .ok _ => .error [e]
  | .ok _, .error e => .error [e]
  | .error e, .error e' => .error [e, e']

end Catalogue

namespace Compiler

def ofSettings (settings : Settings) (catalogue : Catalogue) : Compiler :=
  ⟨settings, catalogue, Engine.forName settings.view⟩

def viewName (compiler : Compiler) : String := compiler.engine.name

def prepare (compiler : Compiler) (template : Scanned) : Except Failure Prepared :=
  match compiler.catalogue.resolveDeclared template.declared with
  | .error diagnostics => .error (.rejected diagnostics)
  | .ok resolved =>
    match compiler.engine.generate resolved.inputs template.text with
    | .error e => .error (.markup e)
    | .ok source =>
      .ok ⟨source, Links.collect resolved.model resolved.handler
        compiler.catalogue.defaults.modules compiler.settings.policy⟩

def prepareText (compiler : Compiler) (template : String) : Except Failure Prepared :=
  compiler.prepare (Scanned.ofText template)

/-- The source as it is handed to a toolchain. -/
def generateSource (compiler : Compiler) (template : String) : Except Failure ViewSource :=
  (compiler.prepareText template).map Prepared.source

def names (compiler : Compiler) (token : Token) : BuildNames :=
  BuildNames.fresh compiler.settings.scratchDir compiler.settings.stem token

def finish (compiler : Compiler) (toolchain : Toolchain) (linker : Linker) (token : Token)
    (prepared : Prepared) (host : Host) : Except Failure View × Host :=
  match compiler.settings.builder.build toolchain (compiler.names token) prepared.links
      prepared.source host with
  | (.error failure, host) => (.error failure, host)
  | (.ok built, host) => (View.load linker host.files built.library compiler.viewName, host)

def compile (compiler : Compiler) (toolchain : Toolchain) (linker : Linker) (token : Token)
    (template : Scanned) (host : Host) : Except Failure View × Host :=
  match compiler.prepare template with
  | .error failure => (.error failure, host)
  | .ok prepared => compiler.finish toolchain linker token prepared host

def compileText (compiler : Compiler) (toolchain : Toolchain) (linker : Linker) (token : Token)
    (template : String) (host : Host) : Except Failure View × Host :=
  compiler.compile toolchain linker token (Scanned.ofText template) host

def compileChunks (compiler : Compiler) (toolchain : Toolchain) (linker : Linker)
    (token : Token) (template : Chunks) (host : Host) : Except Failure View × Host :=
  match Scanned.ofChunks template with
  | .error e => (.error (.system e), host)
  | .ok template => compiler.compile toolchain linker token template host

/-- Scans the template of a cell in place and compiles it. -/
def compileCell (compiler : Compiler) (toolchain : Toolchain) (linker : Linker)
    (token : Token) (template : Cell) (host : Host) : Except Failure View × Host × Cell :=
  let (scan, template) := template.rescan
  let (result, host) :=
    compiler.compile toolchain linker token ⟨scan.handle.text, scan.declared⟩ host
  (result, host, template)

end Compiler

end TemplateViews
