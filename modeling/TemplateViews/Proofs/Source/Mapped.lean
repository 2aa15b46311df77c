import Mathlib.Data.List.Basic
import TemplateViews.Proofs.Source.Frame

/-! The generated lines that template lines stand behind. Whatever names and types are put
into the frame, these are the lines of the body. -/

namespace TemplateViews

def mapped (lines : List SourceLine) : List SourceLine := lines.filter (·.origin.isSome)

variable {lines : List SourceLine}

@[simp] theorem mapped_nil : mapped [] = [] := rfl

@[simp] theorem mapped_append (lines more : List SourceLine) :
    mapped (lines ++ more) = mapped lines ++ mapped more := List.filter_append _ _

theorem mapped_cons {line : SourceLine} (h : line.origin = none) :
    mapped (line :: lines) = mapped lines := by
  simp [mapped, h]

@[simp] theorem origin_scaffold (text : String) : (scaffold text).origin = none := by
  rfl

@[simp] theorem origin_indent (line : SourceLine) : line.indent.origin = line.origin := by
  rfl

@[simp] theorem mapped_map_indent (lines : List SourceLine) :
    mapped (lines.map SourceLine.indent) = (mapped lines).map SourceLine.indent := by
  rw [mapped, List.filter_map]
  rfl

@[simp] theorem mapped_block (header tail : String) (lines : List SourceLine) :
    mapped (block header lines tail) = (mapped lines).map SourceLine.indent := by
  simp [block, mapped_cons]

@[simp] theorem mapped_inputLines (input : String) (type : Option String) (missing : Status) :
    mapped (inputLines input type missing) = [] := by
  cases type <;> simp [inputLines, mapped_cons]

theorem mapped_interfaceLines (name : ViewName) (inputs : Inputs) :
    mapped (interfaceLines name inputs) = [] := by
  simp [interfaceLines, signatureLines, tableLines, constantLines, exportLines, sinkLines,
    wrapperLines, constant, statusLine, emptyLine, mapped_cons]

theorem mapped_viewLines (type : String) (inputs : Inputs) (body : List SourceLine) :
    mapped (viewLines type inputs body) = (mapped body).map (·.deepen 2) := by
  simp [viewLines, emptyLine, mapped_cons, SourceLine.indent, SourceLine.deepen]

theorem mapped_inModules (modules : List String) (lines : List SourceLine) :
    mapped (inModules modules lines) = (mapped lines).map (·.deepen modules.length) := by
  induction modules with
  | nil => simp [inModules, SourceLine.deepen]
  | cons module modules ih =>
    have hblock : inModules (module :: modules) lines =
        block ("pub mod " ++ module) (inModules modules lines) := rfl
    rw [hblock, mapped_block, ih, List.map_map]
    rfl

/-- The mapped lines of a crate are those of the body, at the depth of the render function. -/
theorem mapped_crateLines (name : ViewName) (inputs : Inputs) (body : List SourceLine) :
    mapped (crateLines name inputs body) =
      (mapped body).map (·.deepen (name.modules.length + 2)) := by
  simp [crateLines, emptyLine, mapped_cons, mapped_interfaceLines, mapped_inModules,
    mapped_viewLines, SourceLine.deepen, Nat.add_assoc, Nat.add_comm]

end TemplateViews
