import TemplateViews.Text.Split

/-! What a compiled view and its host agree on: the view's name, the types of its
inputs, the symbol that gives its table of exports and the statuses of a render. -/

namespace TemplateViews

/-- A view type within its modules; `scope` is a path of names or empty. -/
structure ViewName where
  scope : String := "views"
  type : String := "View"
  deriving DecidableEq, Repr

def ViewName.qualified (name : ViewName) : String :=
  if name.scope = "" then name.type else name.scope ++ "::" ++ name.type

/-- The modules around the view type, outermost first; empty names open none. -/
def ViewName.modules (name : ViewName) : List String :=
  ((splitColons name.scope.toList).filter (· ≠ [])).map String.ofList

/-- The types of the values a view is rendered with, as the source names them. -/
structure Inputs where
  model : Option String := none
  handler : Option String := none
  deriving DecidableEq, Repr

def exportsSymbol : String := "simple_view_exports"

inductive Status
  | ok
  | missingModel
  | missingHandler
  | formatError
  | panicked
  deriving DecidableEq, Repr

def Status.code : Status → Int
  | .ok => 0
  | .missingModel => 1
  | .missingHandler => 2
  | .formatError => 3
  | .panicked => 4

end TemplateViews
