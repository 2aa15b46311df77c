import TemplateViews.Diagnostic
import TemplateViews.Json.Decode
import TemplateViews.Json.Read
import TemplateViews.Path
import TemplateViews.Source.Line
import TemplateViews.Text.Blank
import TemplateViews.Text.Lines

/-! The report of a compiler. Each line of it is read on its own: a JSON message of an
error or a warning gives a diagnostic, and any other line gives none. -/

namespace TemplateViews

/-- The part of a compiler's report about a place in a file. -/
structure Span where
  file : String := ""
  line : Nat := 0
  column : Nat := 0
  primary : Bool := false
  deriving DecidableEq, Repr

structure CompilerMessage where
  kind : Option String := none
  message : String := ""
  level : String := ""
  code : Option String := none
  spans : List Span := []
  deriving DecidableEq, Repr

open Json

def Span.record : Record Span where
  name := "Span"
  strict := false
  draft := {}
  fields := [
    .of "file_name" .required decodeString fun file span => { span with file := file },
    .of "line_start" .required decodeNat fun line span => { span with line := line },
    .of "column_start" .required decodeNat fun column span => { span with column := column },
    .of "is_primary" .free decodeBool fun primary span => { span with primary := primary }]

def codeRecord : Record String where
  name := "Code"
  strict := false
  draft := ""
  fields := [.of "code" .required decodeString fun code _ => code]

def CompilerMessage.record : Record CompilerMessage where
  name := "Message"
  strict := false
  draft := {}
  fields := [
    .of "$message_type" .free (decodeOption decodeString) fun kind m => { m with kind := kind },
    .of "message" .required decodeString fun text m => { m with message := text },
    .of "level" .required decodeString fun level m => { m with level := level },
    .of "code" .free (decodeOption codeRecord.decode) fun code m => { m with code := code },
    .of "spans" .free (decodeList Span.record.decode) fun spans m => { m with spans := spans }]

namespace CompilerMessage

def ofLine? (line : List Char) : Option CompilerMessage :=
  if line.head? = some '{' then
    ((Document.ofText (String.ofList line)).decode record.decode).toOption
  else none

def severity? (m : CompilerMessage) : Option Severity :=
  if m.level = "error" ∨ m.level = "error: internal compiler error" then some .error
  else if m.level = "warning" then some .warning
  else none

def isDiagnostic (m : CompilerMessage) : Bool := m.kind.all (· == "diagnostic")

/-- Whether the message only sums up errors that were reported before. -/
def isSummary (m : CompilerMessage) : Bool :=
  "aborting due to".toList.isPrefixOf m.message.toList

/-- The first primary span, or the first one if none is primary. -/
def span? (m : CompilerMessage) : Option Span :=
  m.spans.find? Span.primary <|> m.spans.head?

end CompilerMessage

/-- Only lines of the view's own source come from the template; a file is that source
if its name is the same, wherever it lies. -/
def Span.position (source : ViewSource) (sourceFile : Path) (span : Span) : Position :=
  .generated span.line span.column
    (if Path.fileName? ⟨span.file⟩ = sourceFile.fileName? then source.templateLine? span.line
      else none)

def CompilerMessage.diagnostic? (source : ViewSource) (sourceFile : Path)
    (m : CompilerMessage) : Option Diagnostic :=
  if !m.isDiagnostic || m.isSummary then none
  else
    m.severity?.map fun severity =>
      { severity, message := m.message, code := m.code,
        position := m.span?.map (Span.position source sourceFile) }

def readReport (source : ViewSource) (sourceFile : Path) (report : List Char) :
    List Diagnostic :=
  (linesOf report).filterMap fun line =>
    (CompilerMessage.ofLine? (trim line)).bind (CompilerMessage.diagnostic? source sourceFile)

end TemplateViews
