import TemplateViews.Types.Catalogue
import TemplateViews.Types.Name

/-! Resolving type names. A name is resolved to the tree of the known types it is
made of; it fails with the first fault of the text, read from the outside and from
the left, at which a type without a known name comes before one with a wrong number
of arguments, and that one before faults in its arguments. -/

namespace TemplateViews

/-- How deep the arguments of a name may nest. -/
def maxNesting : Nat := 64

inductive TypeError
  | empty
  | notFound (base : String)
  | malformed (text : String)
  | tooDeep
  | arity (path : String) (expected found : Nat)
  deriving DecidableEq, Repr

def TypeError.message : TypeError → String
  | .empty => "directive has no type name"
  | .notFound base => "type `" ++ base ++ "` not found in any registered module"
  | .malformed text => "malformed type name `" ++ text ++ "`"
  | .tooDeep => s!"generic arguments nest more than {maxNesting} levels deep"
  | .arity path expected found =>
    "type `" ++ path ++ s!"` takes {expected} type argument(s) but {found} were supplied"

/-- A known type applied to others. -/
inductive TypeTree
  | node (type : KnownType) (args : List TypeTree)
  deriving Repr

namespace TypeTree

def type : TypeTree → KnownType
  | node type _ => type

def args : TypeTree → List TypeTree
  | node _ args => args

mutual

def chars : TypeTree → List Char
  | node type [] => type.path.toList
  | node type (arg :: args) => type.path.toList ++ '<' :: arg.chars ++ argumentChars args

/-- The arguments behind the first, and the closing bracket. -/
def argumentChars : List TypeTree → List Char
  | [] => ['>']
  | arg :: args => ',' :: ' ' :: arg.chars ++ argumentChars args

end

def text (tree : TypeTree) : String := String.ofList tree.chars

mutual

def modules : TypeTree → List Module
  | node type args => type.module :: argumentModules args

def argumentModules : List TypeTree → List Module
  | [] => []
  | arg :: args => arg.modules ++ argumentModules args

end

end TypeTree

namespace Catalogue

mutual

def resolveName (catalogue : Catalogue) : TypeName → Except TypeError TypeTree
  | .malformed text => .error (.malformed text)
  | .named base args =>
    match catalogue.find? base with
    | none => .error (.notFound base)
    | some type =>
      if type.arity = args.length then
        (catalogue.resolveNames args).map (.node type)
      else .error (.arity type.path type.arity args.length)

def resolveNames (catalogue : Catalogue) : List TypeName → Except TypeError (List TypeTree)
  | [] => .ok []
  | name :: names =>
    match catalogue.resolveName name with
    | .error e => .error e
    | .ok tree => (catalogue.resolveNames names).map (tree :: ·)

end

def resolve (catalogue : Catalogue) (text : String) : Except TypeError TypeTree :=
  let cs := trim text.toList
  if cs = [] then .error .empty
  else if maxNesting < nesting cs then .error .tooDeep
  else catalogue.resolveName (TypeName.read cs)

end Catalogue

end TemplateViews
