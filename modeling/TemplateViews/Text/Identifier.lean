/-! Identifiers. They are ASCII: a letter or an underscore, then letters, digits and
underscores. -/

namespace TemplateViews

def isNameStart (c : Char) : Bool := c.isAlpha || c == '_'

def isNamePart (c : Char) : Bool := c.isAlphanum || c == '_'

def isIdentifier : List Char → Bool
  | [] => false
  | c :: rest => isNameStart c && rest.all isNamePart

end TemplateViews
