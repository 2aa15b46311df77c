/-! Cutting a text at a separator, as for the components of a path (`/`) and the
names of a type path (`::`). A text without the separator is a single piece. -/

namespace TemplateViews

def consPiece (c : Char) : List (List Char) → List (List Char)
  | [] => [[c]]
  | piece :: rest => (c :: piece) :: rest

def splitAt (separator : Char) (cs : List Char) : List (List Char) :=
  cs.foldr (fun c pieces => if c = separator then [] :: pieces else consPiece c pieces) [[]]

def joinWith (separator : List Char) : List (List Char) → List Char
  | [] => []
  | [piece] => piece
  | piece :: rest => piece ++ separator ++ joinWith separator rest

/-- The pieces between double colons, paired from the left. -/
def splitColons : List Char → List (List Char)
  | [] => [[]]
  | ':' :: ':' :: rest => [] :: splitColons rest
  | c :: rest => consPiece c (splitColons rest)

def untilColons : List Char → List Char
  | [] => []
  | ':' :: ':' :: _ => []
  | c :: rest => c :: untilColons rest

/-- The text after the last double colon, paired from the right. -/
def afterColons (cs : List Char) : List Char := (untilColons cs.reverse).reverse

def hasColons : List Char → Bool
  | [] => false
  | ':' :: ':' :: _ => true
  | _ :: rest => hasColons rest

def dropColons : List Char → List Char
  | ':' :: ':' :: rest => dropColons rest
  | cs => cs

end TemplateViews
