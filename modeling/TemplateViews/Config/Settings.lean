import TemplateViews.Links
import TemplateViews.View.Interface

/-! Settings of a compiler, with defaults that depend on the environment. -/

namespace TemplateViews

/-- The variables of the environment that settings depend on. -/
structure Environment where
  /-- `RUSTC` -/
  compiler : Option String := none
  /-- `TMPDIR` -/
  scratch : Option String := none
  deriving DecidableEq, Repr

def Environment.program (env : Environment) : Path := ⟨env.compiler.getD "rustc"⟩

def Environment.scratchDir (env : Environment) : Path := ⟨env.scratch.getD "/tmp"⟩

structure Settings where
  program : Path := ⟨"rustc"⟩
  edition : String := "2021"
  scratchDir : Path := ⟨"/tmp"⟩
  /-- What the names of all files of a build start with. -/
  stem : String := "SimpleView_"
  view : ViewName := {}
  excluded : List String := defaultExcluded
  searchDirs : List Path := []
  deriving DecidableEq, Repr

namespace Settings

def ofEnvironment (env : Environment) : Settings where
  program := env.program
  scratchDir := env.scratchDir

def policy (settings : Settings) : LinkPolicy := ⟨settings.excluded⟩

end Settings

end TemplateViews
