import TemplateViews.Text.Blank
import TemplateViews.Text.Lines

/-! Declarations of a template. A line declares a type if it starts, blanks aside,
with the token of a keyword; the first line of each keyword counts and the text
after its token names the type. -/

namespace TemplateViews

inductive Keyword
  | model
  | handler
  deriving DecidableEq, Repr

def Keyword.token : Keyword → String
  | .model => "@model"
  | .handler => "@handler"

/-- What a line says after the keyword's token, if it starts with it. -/
def Keyword.argument? (keyword : Keyword) (line : List Char) : Option (List Char) :=
  (keyword.token.toList.isPrefixOf? (trim line)).map trim

structure Declaration where
  keyword : Keyword
  /-- Empty if nothing follows the token. -/
  typeText : String
  line : Nat
  deriving DecidableEq, Repr

def Declaration.ofLine? (keyword : Keyword) (number : Nat) (line : List Char) :
    Option Declaration :=
  (keyword.argument? line).map fun argument => ⟨keyword, String.ofList argument, number⟩

structure Declared where
  model : Option Declaration := none
  handler : Option Declaration := none
  deriving DecidableEq, Repr

namespace Declared

def isEmpty (d : Declared) : Bool := d.model.isNone && d.handler.isNone

/-- Takes up a line; a declaration already made stays. -/
def record (d : Declared) (number : Nat) (line : List Char) : Declared where
  model := d.model <|> Declaration.ofLine? .model number line
  handler := d.handler <|> Declaration.ofLine? .handler number line

def ofLines (lines : List (List Char)) : Declared :=
  (lines.zipIdx 1).foldl (fun d numbered => d.record numbered.2 numbered.1) {}

def ofText (text : String) : Declared := ofLines (linesOf text.toList)

end Declared

structure Scanned where
  text : String
  declared : Declared
  deriving DecidableEq, Repr

def Scanned.ofText (text : String) : Scanned := ⟨text, Declared.ofText text⟩

end TemplateViews
