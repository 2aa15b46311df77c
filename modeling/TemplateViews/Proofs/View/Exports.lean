import TemplateViews.Proofs.Compiler.Prepared
import TemplateViews.Proofs.Source.Constants
import TemplateViews.Proofs.Source.LineMap
import TemplateViews.Proofs.Source.Signature
import TemplateViews.Proofs.Text.Utf8
import TemplateViews.Proofs.Types.RoundTrip

/-! Names on both sides of a library. A library exports the constants that its source defines,
and the host reads back from them the name it expects and the types that were resolved, none
where nothing is declared. -/

namespace TemplateViews

open Catalogue

/-- The table of a library whose constants hold the texts that their literals stand for. -/
def ExportTable.ofConstants (constants : List (String × List Char)) (render : RenderFunction) :
    Option ExportTable := do
  let name ← constants.lookup "__NAME"
  let model ← constants.lookup "__MODEL"
  let handler ← constants.lookup "__HANDLER"
  return ⟨some [⟨.bytes (Utf8.encode name), .bytes (Utf8.encode model),
    .bytes (Utf8.encode handler), render⟩]⟩

/-- Lines of a source whose library a host accepts under a name, and whose render function takes
what the wrapper hands to it. -/
structure Serves (expected : String) (name : ViewName) (inputs : Inputs)
    (lines : List SourceLine) : Prop where
  accepted : ∀ library render, ∃ table,
    ExportTable.ofConstants (constantsIn (lines.map SourceLine.chars)) render = some table ∧
    View.ofTable library expected table =
      .ok ⟨expected, inputs.model, inputs.handler, library, render⟩
  shown : shownIn name lines = ⟨
    [(", ".intercalate (inputs.values.map (fun value => value.1 ++ ": &" ++ value.2) ++
      ["__out: &mut dyn ::std::fmt::Write"])).toList],
    inputs.values,
    [(", ".intercalate (inputs.values.map Prod.fst ++ ["&mut __sink"])).toList]⟩

theorem ForeignText.read_encode (cs : List Char) :
    (bytes (Utf8.encode cs)).read = .ok (String.ofList cs) := by
  rw [read, Utf8.decode_encode]

/-- A type whose text is not empty is read back from the text in its place. -/
theorem View.nonEmpty_getD {type : Option String} (h : ∀ text ∈ type, text ≠ "") :
    nonEmpty (type.getD "") = type := by
  cases type with
  | none => rfl
  | some text => exact if_neg (h text rfl)

theorem View.ofTable_ofConstants {name : String} {inputs : Inputs}
    (hmodel : ∀ text ∈ inputs.model, text ≠ "") (hhandler : ∀ text ∈ inputs.handler, text ≠ "")
    (library : Path) (render : RenderFunction) : ∃ table,
      ExportTable.ofConstants [("__NAME", name.toList), ("__MODEL", (inputs.model.getD "").toList),
        ("__HANDLER", (inputs.handler.getD "").toList)] render = some table ∧
      ofTable library name table = .ok ⟨name, inputs.model, inputs.handler, library, render⟩ := by
  refine ⟨_, rfl, ?_⟩
  have hrow : ofExport library ⟨.bytes (Utf8.encode name.toList),
      .bytes (Utf8.encode (inputs.model.getD "").toList),
      .bytes (Utf8.encode (inputs.handler.getD "").toList), render⟩ =
      .ok ⟨name, inputs.model, inputs.handler, library, render⟩ := by
    simp only [ofExport, ForeignText.read_encode, String.ofList_toList, nonEmpty_getD hmodel,
      nonEmpty_getD hhandler]
  simp [ofTable, hrow]

theorem serves_crateLines {name : ViewName} {inputs : Inputs} {body : List SourceLine}
    (hmodel : ∀ text ∈ inputs.model, text ≠ "") (hhandler : ∀ text ∈ inputs.handler, text ≠ "")
    (hbody : ∀ line ∈ body, ∃ n, line.origin = some n) :
    Serves name.qualified name inputs (crateLines name inputs body) := by
  refine ⟨fun library render => ?_, ?_⟩
  · rw [constantsIn_crateLines]
    exact View.ofTable_ofConstants hmodel hhandler library render
  · rw [shownIn_crateLines name inputs hbody, inputs.parameters_eq, inputs.arguments_eq]

/-- Every declared type has a text, so none is taken for absent. -/
theorem Catalogue.DeclaredAs.text_ne_empty {calls : List Registration}
    {declaration : Option Declaration} {tree : Option TypeTree}
    (h : (ofCalls calls).DeclaredAs declaration tree) :
    ∀ text ∈ tree.map TypeTree.text, text ≠ "" := by
  intro text htext
  obtain ⟨found, hfound, rfl⟩ := Option.map_eq_some_iff.mp htext
  obtain ⟨text, htree⟩ := h.exists_resolve hfound
  exact text_ne_empty_of_resolve htree

namespace Compiler

/-- Whatever is prepared, its library is accepted under the name that the compiler expects, and
shows the types that the template declares. -/
theorem serves_of_prepareText {settings : Settings} {calls : List Registration}
    {template : String} {prepared : Prepared}
    (h : (ofSettings settings (.ofCalls calls)).prepareText template = .ok prepared) :
    ∃ (resolved : Resolved) (lines : List SourceLine),
      prepared.source = .ofLines (ofSettings settings (.ofCalls calls)).viewName lines ∧
      (StayOnLine settings.view resolved.inputs →
        linesOf prepared.source.code.toList = lines.map SourceLine.chars) ∧
      (ofCalls calls).DeclaredAs (Scanned.ofText template).declared.model resolved.model ∧
      (ofCalls calls).DeclaredAs (Scanned.ofText template).declared.handler resolved.handler ∧
      Serves (ofSettings settings (.ofCalls calls)).viewName settings.view resolved.inputs
        lines := by
  obtain ⟨resolved, hresolved, hsource⟩ := exists_resolved_of_prepareText h
  obtain ⟨body, hbody, hprepared⟩ := generate_eq_ok_iff.mp hsource
  obtain ⟨hmodel, hhandler⟩ := resolveDeclared_eq_ok_iff.mp hresolved
  have hnumbered : ∀ line ∈ body, ∃ n, line.origin = some n := fun line hline =>
    (hbody.origin_of_mem hline).imp fun _ hn => hn.2
  refine ⟨resolved, crateLines settings.view resolved.inputs body, hprepared.symm,
    fun hname => ?_, hmodel, hhandler,
    serves_crateLines hmodel.text_ne_empty hhandler.text_ne_empty hnumbered⟩
  rw [← hprepared]
  exact linesOf_ofLines (onOneLine_crateLines hname hbody.onOneLine)

def overviewCompiler : Compiler :=
  ofSettings { view := ⟨"pages", "Übersicht"⟩ } (.ofCalls shopCalls)

def overviewTemplate : String := "@handler List<Form>\n\n<ul>@handler.len()</ul>"

theorem serves_of_prepareText_overview : ∃ prepared,
    overviewCompiler.prepareText overviewTemplate = .ok prepared ∧
    ∃ (resolved : Resolved) (lines : List SourceLine),
      prepared.source = .ofLines overviewCompiler.viewName lines ∧
      (StayOnLine overviewCompiler.settings.view resolved.inputs →
        linesOf prepared.source.code.toList = lines.map SourceLine.chars) ∧
      resolved.inputs = ⟨none, some "base::List<shop::Form>"⟩ ∧
      Serves overviewCompiler.viewName overviewCompiler.settings.view resolved.inputs lines := by
  have hname : (overviewCompiler.prepareText overviewTemplate).map (·.source.name) =
      .ok "pages::Übersicht" := by decide +kernel
  have hinputs : ((ofCalls shopCalls).resolveDeclared
      (Scanned.ofText overviewTemplate).declared).map Resolved.inputs =
        .ok ⟨none, some "base::List<shop::Form>"⟩ := by decide +kernel
  obtain ⟨prepared, hprepared, -⟩ := map_eq_ok_iff.mp hname
  obtain ⟨resolved, lines, hsource, hlines, hmodel, hhandler, hserves⟩ :=
    serves_of_prepareText hprepared
  rw [resolveDeclared_eq_ok_iff.mpr ⟨hmodel, hhandler⟩] at hinputs
  exact ⟨prepared, hprepared, resolved, lines, hsource, hlines, Except.ok.inj hinputs, hserves⟩

end Compiler

end TemplateViews
