import TemplateViews.Build.Toolchain
import TemplateViews.Diagnostic
import TemplateViews.Json.Decode
import TemplateViews.Markup.Line
import TemplateViews.View.Interface

/-! Failures: why a template did not become a view, or a view not a page. -/

namespace TemplateViews

inductive LoadFault
  | notOpened
  | noExports
  | noViews
  | nullText
  | invalidText (error : Utf8.Error)
  | other (reason : String)
  deriving DecidableEq, Repr

def LoadFault.message : LoadFault → String
  | .notOpened => "cannot open the library"
  | .noExports => "missing `" ++ exportsSymbol ++ "`"
  | .noViews => "library exports no views"
  | .nullText => "null string in export table"
  | .invalidText error => "invalid export name: " ++ error.message
  | .other reason => reason

inductive RenderFault
  | missingModel (view : String) (type : Option String)
  | missingHandler (view : String) (type : Option String)
  | unformatted (view : String)
  | panicked (view : String)
  | unknownStatus (view : String) (status : Int)
  | other (reason : String)
  deriving DecidableEq, Repr

def RenderFault.message : RenderFault → String
  | .missingModel view type =>
    "view `" ++ view ++ "` requires a model of type " ++ type.getD "?"
  | .missingHandler view type =>
    "view `" ++ view ++ "` requires a handler of type " ++ type.getD "?"
  | .unformatted view => "view `" ++ view ++ "` failed to format its output"
  | .panicked view => "view `" ++ view ++ "` panicked"
  | .unknownStatus view status => "view `" ++ view ++ s!"` returned unknown status {status}"
  | .other reason => reason

inductive ToolchainFault
  | notStarted (program : Path) (error : SystemError)
  | noLibrary (library : Path)
  | other (reason : String)
  deriving DecidableEq, Repr

def ToolchainFault.message : ToolchainFault → String
  | .notStarted program error => "failed to run " ++ program.text ++ ": " ++ error.message
  | .noLibrary library => "rustc succeeded but produced no library at " ++ library.text
  | .other reason => reason

inductive ConfigFault
  | json (error : Json.DecodeError)
  | other (reason : String)
  deriving DecidableEq, Repr

def ConfigFault.message : ConfigFault → String
  | .json .ended => "the text ends too early"
  | .json .malformed => "the text is no JSON"
  | .json (.data message) => message
  | .other reason => reason

inductive Failure
  | system (error : SystemError)
  | markup (error : MarkupError)
  | rejected (diagnostics : List Diagnostic)
  | unloadable (library : Path) (fault : LoadFault)
  | missingView (expected : String) (found : List String)
  | render (fault : RenderFault)
  | toolchain (fault : ToolchainFault)
  | config (manifest : Path) (fault : ConfigFault)
  | aborted (reason : String)
  deriving DecidableEq, Repr

namespace Failure

def diagnostics : Failure → List Diagnostic
  | rejected diagnostics => diagnostics
  | _ => []

def message : Failure → String
  | system error => "I/O error: " ++ error.message
  | markup error => error.text
  | rejected diagnostics =>
    s!"Compilation failed with {diagnostics.length} error(s):\n" ++
      "\n".intercalate (diagnostics.map fun d => "  - " ++ d.text)
  | unloadable library fault =>
    "Unable to load template library " ++ library.text ++ ": " ++ fault.message
  | missingView expected found =>
    "Template library does not export `" ++ expected ++ "` (found: " ++
      ", ".intercalate found ++ ")"
  | render fault => "Render failed: " ++ fault.message
  | toolchain fault => "Toolchain error: " ++ fault.message
  | config manifest fault =>
    "Configuration error in " ++ manifest.text ++ ": " ++ fault.message
  | aborted reason => "Compilation task aborted: " ++ reason

def messageWithCause : Failure → String
  | system error => "I/O error: " ++ error.message ++ ": " ++ error.message
  | failure => failure.message

end Failure

end TemplateViews
