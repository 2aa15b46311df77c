import TemplateViews.Types.Resolve

/-! Links: the modules that a view is compiled with. They are the modules of its
declared types, then the default ones, at most one for each location and none that
the policy refuses. -/

namespace TemplateViews

/-- Modules that the compiler brings along; naming one as a link breaks a build. -/
def defaultExcluded : List String := ["std", "core", "alloc", "proc_macro", "test"]

structure LinkPolicy where
  excluded : List String := defaultExcluded
  deriving DecidableEq, Repr

def LinkPolicy.accepts (policy : LinkPolicy) (module : Module) : Bool :=
  !module.location.isEmpty && !policy.excluded.contains module.name

structure Links where
  modules : List Module := []
  deriving DecidableEq, Repr

namespace Links

/-- The first module at each location not seen yet, if the policy accepts that one. -/
def select (policy : LinkPolicy) (seen : List (List Path.Component)) :
    List Module → List Module
  | [] => []
  | module :: rest =>
    let place := module.location.components
    if place ∈ seen then select policy seen rest
    else if policy.accepts module then module :: select policy (place :: seen) rest
    else select policy (place :: seen) rest

/-- The modules a view may be linked with, in order. -/
def candidates (model handler : Option TypeTree) (baseline : List Module) : List Module :=
  model.toList.flatMap TypeTree.modules ++ handler.toList.flatMap TypeTree.modules ++ baseline

def collect (model handler : Option TypeTree) (baseline : List Module) (policy : LinkPolicy) :
    Links :=
  ⟨select policy [] (candidates model handler baseline)⟩

def directory? (module : Module) : Option Path :=
  module.location.parent?.filter fun dir => !dir.isEmpty

/-- Adds a path unless it is there under the same components. -/
def addPath (paths : List Path) (path : Path) : List Path :=
  if paths.any (·.components == path.components) then paths else paths ++ [path]

/-- The directories of the modules in the order of their first use. -/
def directories (links : Links) : List Path :=
  (links.modules.filterMap directory?).foldl addPath []

def arguments (links : Links) : List String :=
  links.modules.flatMap (fun module =>
    ["--extern", module.name ++ "=" ++ module.location.text]) ++
  links.directories.flatMap (fun dir => ["-L", "dependency=" ++ dir.text])

end Links

end TemplateViews
