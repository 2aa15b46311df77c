import TemplateViews.Source.Crate
import TemplateViews.Proofs.Text.Quoted
import TemplateViews.Proofs.Text.Split

/-! The layout of generated source. The body of the render function stands in a frame
of scaffold lines that depends on the view's name and inputs alone. -/

namespace TemplateViews

/-- Names and types without line feeds, so that each line of the frame is one line of text. -/
structure StayOnLine (name : ViewName) (inputs : Inputs) : Prop where
  scope : '\n' ∉ name.scope.toList
  type : '\n' ∉ name.type.toList
  model : ∀ type ∈ inputs.model, '\n' ∉ type.toList
  handler : ∀ type ∈ inputs.handler, '\n' ∉ type.toList

namespace SourceLine

def OnOneLine (line : SourceLine) : Prop := '\n' ∉ line.text.toList

/-- A line of the frame. -/
def IsScaffold (line : SourceLine) : Prop := line.origin = none ∧ line.OnOneLine

def deepen (levels : Nat) (line : SourceLine) : SourceLine :=
  { line with depth := line.depth + levels }

end SourceLine

/-- A layout that puts a body at a depth into a frame of scaffold lines. -/
def IsFrame (depth : Nat) (layout : List SourceLine → List SourceLine) : Prop :=
  ∃ before after, (∀ line ∈ before ++ after, line.IsScaffold) ∧
    ∀ body, layout body = before ++ body.map (·.deepen depth) ++ after

theorem isScaffold_scaffold_iff {text : String} :
    (scaffold text).IsScaffold ↔ '\n' ∉ text.toList :=
  ⟨fun h => h.2, fun h => ⟨rfl, h⟩⟩

theorem isScaffold_indent_iff {line : SourceLine} : line.indent.IsScaffold ↔ line.IsScaffold :=
  Iff.rfl

theorem isScaffold_emptyLine : emptyLine.IsScaffold := isScaffold_scaffold_iff.mpr (by decide)

theorem isScaffold_block_iff {header tail : String} {lines : List SourceLine} :
    (∀ line ∈ block header lines tail, line.IsScaffold) ↔
      '\n' ∉ header.toList ∧ (∀ line ∈ lines, line.IsScaffold) ∧ '\n' ∉ tail.toList := by
  have hopen : (scaffold (header ++ " \x7b")).IsScaffold ↔ '\n' ∉ header.toList := by
    simp [isScaffold_scaffold_iff]
  have hclose : (scaffold ("\x7d" ++ tail)).IsScaffold ↔ '\n' ∉ tail.toList := by
    simp [isScaffold_scaffold_iff]
  simp only [block, List.cons_append, List.forall_mem_cons, List.forall_mem_append,
    List.forall_mem_map, isScaffold_indent_iff, List.not_mem_nil, false_implies, implies_true, and_true, hopen, hclose]

theorem isFrame_id : IsFrame 0 fun body => body :=
  ⟨[], [], by simp, fun body => by simp [SourceLine.deepen]⟩

theorem IsFrame.append_left {depth : Nat} {layout : List SourceLine → List SourceLine}
    {lines : List SourceLine} (h : IsFrame depth layout) (hlines : ∀ line ∈ lines, line.IsScaffold) :
    IsFrame depth fun body => lines ++ layout body := by
  obtain ⟨before, after, hframe, hlayout⟩ := h
  refine ⟨lines ++ before, after, fun line hline => ?_, fun body => by simp [hlayout]⟩
  rw [List.append_assoc] at hline
  exact (List.mem_append.mp hline).elim (hlines line) (hframe line)

theorem IsFrame.append_right {depth : Nat} {layout : List SourceLine → List SourceLine}
    {lines : List SourceLine} (h : IsFrame depth layout) (hlines : ∀ line ∈ lines, line.IsScaffold) :
    IsFrame depth fun body => layout body ++ lines := by
  obtain ⟨before, after, hframe, hlayout⟩ := h
  refine ⟨before, after ++ lines, fun line hline => ?_, fun body => by simp [hlayout]⟩
  rw [← List.append_assoc] at hline
  exact (List.mem_append.mp hline).elim (hframe line) (hlines line)

theorem IsFrame.block {depth : Nat} {layout : List SourceLine → List SourceLine}
    {header : String} (h : IsFrame depth layout) (hheader : '\n' ∉ header.toList) :
    IsFrame (depth + 1) fun body => block header (layout body) := by
  obtain ⟨before, after, hframe, hlayout⟩ := h
  have hblock : ∀ line ∈ TemplateViews.block header (before ++ after), line.IsScaffold :=
    isScaffold_block_iff.mpr ⟨hheader, hframe, by decide⟩
  refine ⟨scaffold (header ++ " \x7b") :: before.map SourceLine.indent,
    after.map SourceLine.indent ++ [scaffold ("\x7d" ++ "")], fun line hline => ?_, fun body => ?_⟩
  · exact hblock line (by simpa [TemplateViews.block] using hline)
  · simp [TemplateViews.block, hlayout, SourceLine.deepen, SourceLine.indent, Nat.add_assoc,
      Function.comp_def]

theorem isFrame_inModules {depth : Nat} {layout : List SourceLine → List SourceLine}
    {modules : List String} (h : IsFrame depth layout)
    (hmodules : ∀ module ∈ modules, '\n' ∉ module.toList) :
    IsFrame (modules.length + depth) fun body => inModules modules (layout body) := by
  induction modules with
  | nil => simpa [inModules] using h
  | cons module modules ih =>
    have hrest := ih fun m hm => hmodules m (by simp [hm])
    have hheader : '\n' ∉ ("pub mod " ++ module).toList := by
      simpa using hmodules module (by simp)
    have hlength : (module :: modules).length + depth = modules.length + depth + 1 := by
      simp only [List.length_cons]
      omega
    rw [hlength]
    exact hrest.block hheader

theorem newline_not_mem_intercalate {separator : String} {texts : List String}
    (hseparator : '\n' ∉ separator.toList) (htexts : ∀ text ∈ texts, '\n' ∉ text.toList) :
    '\n' ∉ (separator.intercalate texts).toList := by
  induction texts with
  | nil => simp
  | cons text texts ih =>
    have htext := htexts text (by simp)
    have hrest := ih fun t ht => htexts t (by simp [ht])
    cases texts with
    | nil => simpa using htext
    | cons next texts =>
      rw [String.intercalate_cons_cons]
      simp only [String.toList_append, List.mem_append, not_or]
      exact ⟨⟨htext, hseparator⟩, hrest⟩

namespace StayOnLine

variable {name : ViewName} {inputs : Inputs}

theorem qualified (h : StayOnLine name inputs) : '\n' ∉ name.qualified.toList := by
  unfold ViewName.qualified
  split
  · exact h.type
  · simp [h.scope, h.type]

theorem parameters (h : StayOnLine name inputs) : '\n' ∉ inputs.parameters.toList := by
  refine newline_not_mem_intercalate (by decide) fun text htext => ?_
  simp only [List.mem_append, Option.mem_toList, Option.map_eq_some_iff, List.mem_singleton]
    at htext
  rcases htext with (⟨type, htype, rfl⟩ | ⟨type, htype, rfl⟩) | rfl
  · simp [h.model type htype]
  · simp [h.handler type htype]
  · decide

theorem modules (h : StayOnLine name inputs) : ∀ module ∈ name.modules, '\n' ∉ module.toList := by
  intro module hmodule
  obtain ⟨piece, hpiece, rfl⟩ := List.mem_map.mp hmodule
  rw [String.toList_ofList]
  intro hmem
  exact h.scope (mem_of_mem_splitColons (List.mem_filter.mp hpiece).1 hmem)

end StayOnLine

theorem newline_not_mem_arguments (inputs : Inputs) : '\n' ∉ inputs.arguments.toList := by
  refine newline_not_mem_intercalate (by decide) fun text htext => ?_
  simp only [List.mem_append, Option.mem_toList, Option.map_eq_some_iff, List.mem_singleton]
    at htext
  rcases htext with (⟨_, _, rfl⟩ | ⟨_, _, rfl⟩) | rfl <;> decide

theorem isScaffold_constant {name value : String} (hname : '\n' ∉ name.toList) :
    (constant name value).IsScaffold :=
  isScaffold_scaffold_iff.mpr (by simp [hname, newline_not_mem_quoted])

theorem newline_not_mem_code (status : Status) : '\n' ∉ (toString status.code).toList := by
  cases status <;> decide

theorem isScaffold_inputLines {input : String} {type : Option String} {missing : Status}
    (hinput : '\n' ∉ input.toList) (htype : ∀ t ∈ type, '\n' ∉ t.toList) :
    ∀ line ∈ inputLines input type missing, line.IsScaffold := by
  cases type with
  | none => simp [inputLines]
  | some type =>
    simp only [inputLines, List.forall_mem_cons, isScaffold_scaffold_iff, List.not_mem_nil,
      false_implies, implies_true, and_true, String.toList_append, List.mem_append, not_or, hinput,
      htype type rfl, newline_not_mem_code, not_false_eq_true]
    decide

theorem isScaffold_wrapperLines {name : ViewName} {inputs : Inputs}
    (h : StayOnLine name inputs) : ∀ line ∈ wrapperLines name inputs, line.IsScaffold := by
  have hmodel : ∀ line ∈ inputLines "model" inputs.model .missingModel, line.IsScaffold :=
    isScaffold_inputLines (by decide) h.model
  have hhandler : ∀ line ∈ inputLines "handler" inputs.handler .missingHandler, line.IsScaffold :=
    isScaffold_inputLines (by decide) h.handler
  simp only [wrapperLines, statusLine, List.append_assoc, List.forall_mem_append,
    List.forall_mem_cons, List.forall_mem_map, isScaffold_block_iff, isScaffold_indent_iff,
    isScaffold_scaffold_iff, List.not_mem_nil, false_implies, implies_true, and_true]
  simp only [String.toList_append, List.mem_append, not_or, h.qualified,
    newline_not_mem_arguments, newline_not_mem_code, not_false_eq_true, true_and, and_true]
  and_intros
  any_goals assumption
  all_goals rw [String.toList_ofList]; decide +kernel

theorem isScaffold_interfaceLines {name : ViewName} {inputs : Inputs}
    (h : StayOnLine name inputs) : ∀ line ∈ interfaceLines name inputs, line.IsScaffold := by
  have hconstants : ∀ line ∈ constantLines name inputs, line.IsScaffold := by
    simp only [constantLines, List.forall_mem_cons]
    exact ⟨isScaffold_constant (by decide), isScaffold_constant (by decide),
      isScaffold_constant (by decide), by simp⟩
  have hwrapper := isScaffold_wrapperLines h
  simp only [interfaceLines, signatureLines, tableLines, exportLines, sinkLines,
    List.forall_mem_append, List.forall_mem_cons, isScaffold_block_iff, isScaffold_scaffold_iff,
    isScaffold_emptyLine, List.not_mem_nil, false_implies, implies_true, and_true, true_and]
  simp only [exportsSymbol, String.toList_append, List.mem_append, not_or]
  and_intros
  any_goals assumption
  all_goals rw [String.toList_ofList]; decide +kernel

theorem isFrame_viewLines {type : String} {inputs : Inputs} (htype : '\n' ∉ type.toList)
    (hparameters : '\n' ∉ inputs.parameters.toList) : IsFrame 2 (viewLines type inputs) := by
  have hrender : '\n' ∉ ("pub fn render(" ++ inputs.parameters ++ ") -> ::std::fmt::Result").toList := by
    simp [hparameters]
  have himpl : '\n' ∉ ("impl " ++ type).toList := by simp [htype]
  have hstruct : '\n' ∉ ("pub struct " ++ type ++ ";").toList := by simp [htype]
  refine (((isFrame_id.append_right ?_).block hrender).block himpl).append_left ?_
  · simp only [List.forall_mem_cons, isScaffold_scaffold_iff]
    exact ⟨by decide, by simp⟩
  · simp only [List.forall_mem_cons, isScaffold_scaffold_iff, isScaffold_emptyLine, true_and]
    exact ⟨by decide, hstruct, by simp⟩

/-- The layout of a crate: its modules, the view type and the render function are open
around the body. -/
theorem isFrame_crateLines {name : ViewName} {inputs : Inputs} (h : StayOnLine name inputs) :
    IsFrame (name.modules.length + 2) (crateLines name inputs) := by
  have hview := isFrame_inModules (isFrame_viewLines h.type h.parameters) h.modules
  refine ((hview.append_left ?_).append_right ?_).append_right (isScaffold_interfaceLines h)
  · simp only [List.forall_mem_cons, isScaffold_scaffold_iff, isScaffold_emptyLine, true_and]
    refine ⟨?_, ?_, by simp⟩ <;> rw [String.toList_ofList] <;> decide
  · simp [isScaffold_emptyLine]

end TemplateViews
