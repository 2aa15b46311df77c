import TemplateViews.Path

/-! Names of a build. A random token makes the names of each build its own, so that
builds in one directory keep apart. -/

namespace TemplateViews

/-- A random number of 128 bits, of which six are fixed: those of version and variant. -/
structure Token where
  number : Nat
  deriving DecidableEq, Repr

namespace Token

def digitCount : Nat := 32

def versionDigit : Nat := 12

def variantDigit : Nat := 16

/-- The hexadecimal digit at an index, from the left. -/
def digit (token : Token) (index : Nat) : Nat :=
  let random := token.number / Nat.pow 16 (digitCount - 1 - index) % 16
  if index = versionDigit then 4
  else if index = variantDigit then 8 + random % 4
  else random

def text (token : Token) : String :=
  String.ofList ((List.range digitCount).map fun index => Nat.digitChar (token.digit index))

end Token

structure BuildNames where
  crateName : String
  source : Path
  library : Path
  deriving DecidableEq, Repr

def BuildNames.fresh (dir : Path) (stem : String) (token : Token) : BuildNames where
  crateName := "simpleview_" ++ token.text
  source := dir.join ⟨stem ++ token.text ++ ".rs"⟩
  library := dir.join ⟨stem ++ token.text ++ ".so"⟩

end TemplateViews
