import TemplateViews.Text.Blank

/-! Generated source. It is made of lines that know the template line they come from,
so the text and the map back to the template are two views of one list. -/

namespace TemplateViews

structure SourceLine where
  depth : Nat := 0
  text : String
  origin : Option Nat := none
  deriving DecidableEq, Repr

namespace SourceLine

/-- Four blanks for each level; an empty line is not indented. -/
def chars (line : SourceLine) : List Char :=
  if line.text = "" then ['\n']
  else List.replicate (4 * line.depth) ' ' ++ line.text.toList ++ ['\n']

def indent (line : SourceLine) : SourceLine := { line with depth := line.depth + 1 }

end SourceLine

/-- A line of the scaffold, which no template line stands behind. -/
def scaffold (text : String) : SourceLine := { text := text }

def emptyLine : SourceLine := scaffold ""

/-- A header with a braced, indented body; `tail` follows the closing brace. -/
def block (header : String) (body : List SourceLine) (tail : String := "") : List SourceLine :=
  scaffold (header ++ " \x7b") :: body.map SourceLine.indent ++ [scaffold ("\x7d" ++ tail)]

structure ViewSource where
  code : String
  /-- The template line behind each generated line. -/
  origins : List (Option Nat)
  name : String
  deriving DecidableEq, Repr

namespace ViewSource

def ofLines (name : String) (lines : List SourceLine) : ViewSource where
  code := String.ofList (lines.flatMap SourceLine.chars)
  origins := lines.map SourceLine.origin
  name := name

/-- The template line behind a generated line, which counts from 1. -/
def templateLine? (source : ViewSource) : Nat → Option Nat
  | 0 => none
  | index + 1 => source.origins[index]?.join

end ViewSource

end TemplateViews
