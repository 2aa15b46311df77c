import TemplateViews.Proofs.Source.Statements
import TemplateViews.Proofs.Text.Literal
import TemplateViews.Source.Crate

/-! Constants of generated source. Whatever names and types a view has, the lines of its crate
define three constants at the outer level, whose literals stand for them. -/

namespace TemplateViews

/-- The constant that a line defines at the outer level, and the text that its literal stands
for. -/
def readConstant (line : List Char) : Option (String × List Char) := do
  let rest ← "const ".toList.isPrefixOf? line
  let value ← ": &str = ".toList.isPrefixOf? (rest.dropWhile (· ≠ ':'))
  let (text, behind) ← readLiteral value
  if behind = [';', '\n'] then some (String.ofList (rest.takeWhile (· ≠ ':')), text) else none

def constantsIn (lines : List (List Char)) : List (String × List Char) :=
  lines.filterMap readConstant

section Lines

variable {line : List Char} {text header tail : String} {lines more : List SourceLine}

theorem readConstant_of_head (h : line.head? ≠ some 'c') : readConstant line = none := by
  have hfront : "const ".toList.isPrefixOf? line = none := by
    cases line with
    | nil => rfl
    | cons c rest =>
      have hc : ('c' == c) = false := by
        refine beq_eq_false_iff_ne.mpr fun he => h ?_
        rw [← he]
        rfl
      rw [String.toList_ofList, List.isPrefixOf?, hc]
      rfl
  rw [readConstant, hfront]
  rfl

theorem readConstant_constant {name : String} (hname : ':' ∉ name.toList) (value : String) :
    readConstant (constant name value).chars = some (name, value.toList) := by
  have hne : "const " ++ name ++ ": &str = " ++ quoted value ++ ";" ≠ "" := by simp
  have hchars : (constant name value).chars = "const ".toList ++ (name.toList ++
      ':' :: (" &str = ".toList ++ ((quoted value).toList ++ [';', '\n']))) := by
    rw [SourceLine.chars, constant, scaffold, if_neg hne]
    simp
  have hvalue : ':' :: (" &str = ".toList ++ ((quoted value).toList ++ [';', '\n'])) =
      ": &str = ".toList ++ ((quoted value).toList ++ [';', '\n']) := by
    simp
  obtain ⟨htake, hdrop⟩ :=
    cut_at_mark hname (" &str = ".toList ++ ((quoted value).toList ++ [';', '\n']))
  unfold readConstant
  rw [hchars, isPrefixOf?_append, Option.bind_eq_bind, Option.bind_some, htake, hdrop, hvalue,
    isPrefixOf?_append]
  simp [readLiteral_quoted]

theorem readConstant_indent (line : SourceLine) : readConstant line.indent.chars = none := by
  refine readConstant_of_head ?_
  unfold SourceLine.chars SourceLine.indent
  split
  · simp
  · rw [Nat.mul_add, Nat.add_comm, List.replicate_add]
    simp

theorem readConstant_scaffold (h : text.toList.head? ≠ some 'c') :
    readConstant (scaffold text).chars = none := by
  refine readConstant_of_head ?_
  unfold SourceLine.chars scaffold
  split
  · simp
  · cases hchars : text.toList with
    | nil => simp
    | cons c rest => simpa [hchars] using h

/-- A block defines no constant at the outer level unless its header does. -/
theorem readConstant_block (h : header.toList.head? ≠ some 'c') (hne : header ≠ "") :
    ∀ line ∈ block header lines tail, readConstant line.chars = none := by
  have hopen : (header ++ " \x7b").toList.head? ≠ some 'c' := by
    cases hchars : header.toList with
    | nil => exact absurd (String.toList_eq_nil_iff.mp hchars) hne
    | cons c rest => simpa [hchars] using h
  have hclose : ("\x7d" ++ tail).toList.head? ≠ some 'c' := by simp
  rw [block, List.forall_mem_append, List.forall_mem_cons, List.forall_mem_map,
    List.forall_mem_singleton]
  exact ⟨⟨readConstant_scaffold hopen, fun line _ => readConstant_indent line⟩,
    readConstant_scaffold hclose⟩

end Lines

section Crate

variable (name : ViewName) (inputs : Inputs) (body : List SourceLine)

theorem readConstant_emptyLine : readConstant emptyLine.chars = none :=
  readConstant_scaffold (by decide)

theorem readConstant_viewLines (type : String) :
    ∀ line ∈ viewLines type inputs body, readConstant line.chars = none := by
  have hstruct : ("pub struct " ++ type ++ ";").toList.head? ≠ some 'c' := by simp
  simp only [viewLines, List.forall_mem_append, List.forall_mem_cons]
  refine ⟨⟨readConstant_scaffold ?_, readConstant_emptyLine, readConstant_scaffold hstruct,
    readConstant_emptyLine, List.forall_mem_nil _⟩, readConstant_block (by simp) (by simp)⟩
  rw [String.toList_ofList]
  decide

theorem readConstant_inModules {lines : List SourceLine} (modules : List String)
    (h : ∀ line ∈ lines, readConstant line.chars = none) :
    ∀ line ∈ inModules modules lines, readConstant line.chars = none := by
  cases modules with
  | nil => exact h
  | cons module modules => exact readConstant_block (by simp) (by simp)

/-- The lines of the interface in front of the constants and behind them. -/
theorem readConstant_interface :
    (∀ line ∈ signatureLines ++ [emptyLine] ++ tableLines ++ [emptyLine],
      readConstant line.chars = none) ∧
    ∀ line ∈ [emptyLine] ++ exportLines ++ [emptyLine] ++ sinkLines ++ [emptyLine] ++
      wrapperLines name inputs, readConstant line.chars = none := by
  simp only [signatureLines, tableLines, exportLines, sinkLines, wrapperLines,
    List.forall_mem_append, List.forall_mem_cons, List.forall_mem_map, readConstant_indent,
    readConstant_emptyLine, List.not_mem_nil, false_implies, implies_true, and_true, true_and]
  and_intros
  any_goals
    refine readConstant_block ?_ (by simp)
    simp
  all_goals
    refine readConstant_scaffold ?_
    rw [String.toList_ofList]
    decide +kernel

/-- Whatever the names are, a crate defines its name and the types of its inputs, and nothing
else. -/
theorem constantsIn_crateLines :
    constantsIn ((crateLines name inputs body).map SourceLine.chars) =
      [("__NAME", name.qualified.toList), ("__MODEL", (inputs.model.getD "").toList),
        ("__HANDLER", (inputs.handler.getD "").toList)] := by
  have hnone {lines : List SourceLine} (h : ∀ line ∈ lines, readConstant line.chars = none) :
      lines.filterMap (readConstant ∘ SourceLine.chars) = [] := List.filterMap_eq_nil_iff.mpr h
  have hconstants : (constantLines name inputs).filterMap (readConstant ∘ SourceLine.chars) =
      [("__NAME", name.qualified.toList), ("__MODEL", (inputs.model.getD "").toList),
        ("__HANDLER", (inputs.handler.getD "").toList)] := by
    simp [constantLines, readConstant_constant]
  have hhead : ∀ line ∈ [scaffold "// Generated by simpleview. Do not edit.",
      scaffold "#![allow(unused, non_snake_case, non_camel_case_types)]", emptyLine],
      readConstant line.chars = none := by
    simp only [List.forall_mem_cons]
    refine ⟨readConstant_scaffold ?_, readConstant_scaffold ?_, readConstant_emptyLine,
      List.forall_mem_nil _⟩ <;> rw [String.toList_ofList] <;> decide +kernel
  obtain ⟨hbefore, hafter⟩ := readConstant_interface name inputs
  have hlines : crateLines name inputs body =
      [scaffold "// Generated by simpleview. Do not edit.",
        scaffold "#![allow(unused, non_snake_case, non_camel_case_types)]", emptyLine] ++
      inModules name.modules (viewLines name.type inputs body) ++ [emptyLine] ++
      (signatureLines ++ [emptyLine] ++ tableLines ++ [emptyLine]) ++ constantLines name inputs ++
      ([emptyLine] ++ exportLines ++ [emptyLine] ++ sinkLines ++ [emptyLine] ++
        wrapperLines name inputs) := by
    simp only [crateLines, interfaceLines, List.append_assoc]
  rw [constantsIn, List.filterMap_map, hlines, List.filterMap_append, hnone hafter,
    List.append_nil, List.filterMap_append, hconstants, List.filterMap_append, hnone hbefore,
    List.filterMap_append, hnone (List.forall_mem_singleton.mpr readConstant_emptyLine),
    List.filterMap_append, hnone hhead,
    hnone (readConstant_inModules _ (readConstant_viewLines inputs body _))]
  rfl

end Crate

end TemplateViews
