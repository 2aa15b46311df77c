import TemplateViews.Markup.Line
import TemplateViews.Source.Line
import TemplateViews.Text.Lines
import TemplateViews.Text.Quoted

/-! The body of a view's render function. Each template line that puts something on
the page gives one line of statements, which writes its parts in order and then its
terminator; lines that declare a type give none. -/

namespace TemplateViews

open Markup

def writeText (text : String) : String := "__out.write_str(" ++ quoted text ++ ")?;"

def Markup.Part.statement : Part → String
  | .text chars => writeText chars
  | .value expression => "::std::write!(__out, \"\x7b\x7d\", " ++ expression ++ ")?;"
  | .statements code => code

def Terminator.statement? : Terminator → Option String
  | .absent => none
  | terminator => some (writeText (String.ofList terminator.chars))

/-- The statements of a line, with a blank after each but the last. -/
def lineStatements (parts : List Part) (terminator : Terminator) : String :=
  String.ofList (trimEnd
    (parts.flatMap (fun part => part.statement.toList ++ [' ']) ++
      (terminator.statement?.getD "").toList))

/-- What lines start with, blanks aside, that are for others to read. -/
def directives : List String := ["@model", "@handler"]

/-- Lines that declare a type are no markup. -/
def declares (line : List Char) : Bool :=
  directives.any fun directive => directive.toList.isPrefixOf (trim line)

/-- The source line of a template line, if it puts anything on the page. -/
def bodyLine? (number : Nat) (raw : List Char) : Except MarkupError (Option SourceLine) :=
  let line := Line.ofChars raw
  if declares line.content then .ok none
  else
    match readParts number line.content with
    | .error e => .error e
    | .ok parts =>
      let text := lineStatements parts line.terminator
      .ok (if text = "" then none else some { text := text, origin := some number })

def bodyLines (template : String) : Except MarkupError (List SourceLine) :=
  match (linesOf template.toList |>.zipIdx 1).mapM fun line => bodyLine? line.2 line.1 with
  | .error e => .error e
  | .ok lines => .ok (lines.filterMap id)

end TemplateViews
