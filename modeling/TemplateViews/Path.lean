import TemplateViews.Text.Split

/-! Paths in text form. A path is kept as it was written; two paths name the same
place if their components agree, where repeated and trailing slashes and every `.`
but a leading one do not count, and `..` is never folded. A path is Unicode text here:
paths of other bytes, which the system has as well, are outside of this model. -/

namespace TemplateViews

structure Path where
  text : String
  deriving DecidableEq, Repr

namespace Path

inductive Component
  | root
  /-- A leading `.`, the only one that counts. -/
  | here
  | up
  | named (name : String)
  deriving DecidableEq, Repr

/-- The component a piece between slashes stands for, after the first piece. -/
def Component.inner (piece : List Char) : Option Component :=
  if piece = [] ∨ piece = ['.'] then none
  else if piece = ['.', '.'] then some .up
  else some (.named (String.ofList piece))

/-- The component of the first piece; an empty one is the root if a slash follows. -/
def Component.first (piece : List Char) (slashFollows : Bool) : Option Component :=
  if piece = [] then (if slashFollows then some .root else none)
  else if piece = ['.'] then some .here
  else Component.inner piece

def pieces (p : Path) : List (List Char) := splitAt '/' p.text.toList

def components (p : Path) : List Component :=
  match p.pieces with
  | [] => []
  | first :: rest =>
    (Component.first first !rest.isEmpty).toList ++ rest.filterMap Component.inner

def isAbsolute (p : Path) : Bool := p.text.toList.head? == some '/'

def isEmpty (p : Path) : Bool := p.text.toList.isEmpty

/-- An absolute path replaces the base; joining the empty path leaves a trailing slash. -/
def join (base p : Path) : Path :=
  if p.isAbsolute || base.isEmpty then p
  else if base.text.toList.getLast? = some '/' then ⟨base.text ++ p.text⟩
  else ⟨base.text ++ "/" ++ p.text⟩

/-- Drops the pieces at the end that stand for no component. -/
def trimPieces (pieces : List (List Char)) : List (List Char) :=
  (pieces.reverse.dropWhile fun piece => (Component.inner piece).isNone).reverse

/-- The path without its last component, as far as it was written before it. The
root and the empty path have no parent. -/
def parent? (p : Path) : Option Path :=
  match p.pieces with
  | [] => none
  | first :: rest =>
    match trimPieces rest with
    | [] => if first = [] then none else some ⟨""⟩
    | inner =>
      let kept := first :: trimPieces inner.dropLast
      some ⟨if kept = [[]] then "/" else String.ofList (joinWith ['/'] kept)⟩

def fileName? (p : Path) : Option String :=
  match p.components.getLast? with
  | some (.named name) => some name
  | _ => none

end Path

end TemplateViews
