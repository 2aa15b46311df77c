import TemplateViews.Markup.Piece

/-! Lines of markup as parts of a page: text, values to be printed and statements to
be run. An error points at the construct that could not be read. -/

namespace TemplateViews

/-- An error in the markup of a template; lines and columns count from 1, columns in
characters. -/
structure MarkupError where
  line : Nat
  column : Nat
  message : String
  deriving DecidableEq, Repr

def MarkupError.text (e : MarkupError) : String :=
  s!"template syntax error at line {e.line}, column {e.column}: " ++ e.message

namespace Markup

inductive Part
  | text (chars : String)
  | value (expression : String)
  | statements (code : String)
  deriving DecidableEq, Repr

/-- What a piece means, blanks around bodies aside; a blank code block means nothing. -/
def Piece.part? : Piece → Option Part
  | .run text => some (.text (String.ofList text))
  | .atSign => some (.text "@")
  | .expression body => some (.value (String.ofList (trim body)))
  | .code body => if trim body = [] then none else some (.statements (String.ofList (trim body)))
  | .path names => some (.value (String.ofList names))

def readParts (number : Nat) (line : List Char) : Except MarkupError (List Part) :=
  match readPieces line with
  | (pieces, none) => .ok (pieces.filterMap Piece.part?)
  | (pieces, some problem) =>
    .error ⟨number, (pieces.flatMap Piece.written).length + 1 + problem.offset, problem.message⟩

end Markup

end TemplateViews
