/-! Diagnostics: what a compilation reports about a template, and where. -/

namespace TemplateViews

inductive Severity
  | error
  | warning
  deriving DecidableEq, Repr

def Severity.text : Severity → String
  | .error => "error"
  | .warning => "warning"

/-- Lines and columns count from 1. -/
inductive Position
  | template (line : Nat)
  /-- A place in compiled source, with the template line it comes from. -/
  | generated (line column : Nat) (templateLine : Option Nat)
  deriving DecidableEq, Repr

namespace Position

def templateLine? : Position → Option Nat
  | template line => some line
  | generated _ _ templateLine => templateLine

def text : Position → String
  | template line => s!"template line {line}"
  | generated line column (some templateLine) =>
    s!"template line {templateLine} (generated {line}:{column})"
  | generated line column none => s!"generated {line}:{column}"

end Position

structure Diagnostic where
  severity : Severity
  message : String
  /-- The code of a compiler error, such as `E0412`. -/
  code : Option String := none
  position : Option Position := none
  deriving DecidableEq, Repr

namespace Diagnostic

def isError (d : Diagnostic) : Bool := d.severity == .error

def text (d : Diagnostic) : String :=
  d.severity.text ++ ((d.code.map fun code => "[" ++ code ++ "]").getD "") ++ ": " ++ d.message ++
    ((d.position.map fun position => " at " ++ position.text).getD "")

end Diagnostic

end TemplateViews
