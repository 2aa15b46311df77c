import TemplateViews.Proofs.Build.Names
import TemplateViews.Proofs.Build.Report
import TemplateViews.Proofs.Compiler.Prepared
import TemplateViews.Proofs.Source.LineNumbers
import TemplateViews.Proofs.Types.RoundTrip

/-! Positions of diagnostics. A message is placed by one of its spans, and the span belongs to a
template line if it is on the line of the view's own source that holds its statements. -/

namespace TemplateViews

/-- The first primary span of a message, or the first of all if none is primary. -/
inductive Leads (spans : List Span) (span : Span) : Prop
  | primary {before after : List Span} (hspans : spans = before ++ span :: after)
      (hprimary : span.primary = true) (hbefore : ∀ other ∈ before, other.primary = false)
  | first {rest : List Span} (hspans : spans = span :: rest)
      (hnone : ∀ other ∈ spans, other.primary = false)

/-- Paths that end with the same name, wherever they lead. -/
def Path.SameFileName (p q : Path) : Prop :=
  ∃ name, p.fileName? = some name ∧ q.fileName? = some name

section Spans

variable {m : CompilerMessage} {span : Span}

theorem CompilerMessage.span?_eq_none_iff : m.span? = none ↔ m.spans = [] := by
  cases hspans : m.spans with
  | nil => simp [span?, hspans]
  | cons first rest => simp [span?, hspans]

theorem find?_primary_eq_some_iff {spans : List Span} :
    spans.find? Span.primary = some span ↔ span.primary = true ∧
      ∃ before after, spans = before ++ span :: after ∧
        ∀ other ∈ before, other.primary = false := by
  simp [List.find?_eq_some_iff_append]

theorem CompilerMessage.span?_eq_some_iff : m.span? = some span ↔ Leads m.spans span := by
  unfold span?
  constructor
  · intro h
    cases hfind : m.spans.find? Span.primary with
    | some found =>
      rw [hfind] at h
      obtain rfl : found = span := Option.some.inj h
      obtain ⟨hprimary, before, after, hspans, hbefore⟩ := find?_primary_eq_some_iff.mp hfind
      exact .primary hspans hprimary hbefore
    | none =>
      rw [hfind] at h
      obtain ⟨rest, hspans⟩ := List.head?_eq_some_iff.mp h
      exact .first hspans (by simpa using List.find?_eq_none.mp hfind)
  · intro h
    cases h with
    | primary hspans hprimary hbefore =>
      rw [find?_primary_eq_some_iff.mpr ⟨hprimary, _, _, hspans, hbefore⟩]
      rfl
    | first hspans hnone =>
      have hfind : m.spans.find? Span.primary = none :=
        List.find?_eq_none.mpr (by simpa using hnone)
      rw [hfind, hspans]
      rfl

end Spans

/-- Where a message is placed, and the template line of the place. -/
structure Placed (name : ViewName) (template : String) (source : ViewSource) (file : Path)
    (m : CompilerMessage) (position : Option Position) : Prop where
  absent : position = none ↔ m.spans = []
  placed : ∀ place ∈ position, ∃ span templateLine?, Leads m.spans span ∧
    place = .generated span.line span.column templateLine? ∧
    (∀ n, templateLine? = some n ↔ Path.SameFileName ⟨span.file⟩ file ∧
      HoldsStatements name template source span.line n) ∧
    (span.line = 0 ∨ source.code.toList.count '\n' < span.line → templateLine? = none)

section Reports

variable {name : ViewName} {inputs : Inputs} {template : String} {source : ViewSource}
  {file : Path}

theorem placed_span? (hname : StayOnLine name inputs) (h : generate name inputs template = .ok source)
    (hfile : ∃ name, file.fileName? = some name) (m : CompilerMessage) :
    Placed name template source file m (m.span?.map (Span.position source file)) := by
  refine ⟨by rw [Option.map_eq_none_iff, CompilerMessage.span?_eq_none_iff], fun place hplace => ?_⟩
  obtain ⟨span, hspan, rfl⟩ := Option.map_eq_some_iff.mp hplace
  have hmapped : ∀ n, (if Path.fileName? ⟨span.file⟩ = file.fileName? then
        source.templateLine? span.line else none) = some n ↔
      Path.SameFileName ⟨span.file⟩ file ∧ HoldsStatements name template source span.line n := by
    intro n
    split
    · next hsame =>
      obtain ⟨last, hlast⟩ := hfile
      rw [templateLine?_eq_some_iff hname h]
      exact ⟨fun hholds => ⟨⟨last, hsame.trans hlast, hlast⟩, hholds⟩, And.right⟩
    · next hforeign =>
      refine iff_of_false (by simp) ?_
      rintro ⟨⟨last, hspan, hfile⟩, -⟩
      exact hforeign (hspan.trans hfile.symm)
  refine ⟨span, _, CompilerMessage.span?_eq_some_iff.mp hspan, rfl, hmapped, fun hline => ?_⟩
  refine Option.eq_none_iff_forall_ne_some.mpr fun n hn => ?_
  obtain ⟨-, hholds⟩ := (hmapped n).mp hn
  have hpositive : 0 < span.line := by
    rw [hholds.stands]
    exact Nat.succ_pos _
  have hinside := hholds.inside
  omega

end Reports

namespace Compiler

/-- Every diagnostic in a report on the source of a template is placed where the template has
what the message is about. -/
theorem placed_of_report {settings : Settings} {catalogue : Catalogue} {template : String}
    {prepared : Prepared}
    (h : (ofSettings settings catalogue).prepareText template = .ok prepared)
    (hnames : ∀ resolved,
      catalogue.resolveDeclared (Scanned.ofText template).declared = .ok resolved →
        StayOnLine settings.view resolved.inputs)
    (token : Token) (report : List Char) :
    ∀ d ∈ readReport prepared.source ((ofSettings settings catalogue).names token).source report,
      ∃ line ∈ linesOf report, ∃ m, CompilerMessage.ofLine? (trim line) = some m ∧
        m.diagnostic? prepared.source ((ofSettings settings catalogue).names token).source =
          some d ∧
        Placed settings.view template prepared.source
          ((ofSettings settings catalogue).names token).source m d.position := by
  intro d hd
  obtain ⟨line, hline, hd⟩ := mem_readReport.mp hd
  obtain ⟨m, hm, hdiagnostic⟩ := lineDiagnostic?_eq_some_iff.mp hd
  obtain ⟨-, -, -, -, -, hposition⟩ := CompilerMessage.diagnostic?_eq_some_iff.mp hdiagnostic
  obtain ⟨resolved, hresolved, hsource⟩ := exists_resolved_of_prepareText h
  obtain ⟨start, hbeside⟩ := BuildNames.exists_beside_fresh settings.scratchDir settings.stem
  have hfile := BuildNames.exists_fileName?_of_endsIn (by decide) (hbeside token).source
  rw [hposition]
  exact ⟨line, hline, m, hm, hdiagnostic, placed_span? (hnames resolved hresolved) hsource hfile m⟩

def formCompiler : Compiler := ofSettings {} (.ofCalls Catalogue.shopCalls)

def formTemplate : String := "@model Form\n\n<b>@model.name</b>"

/-- An error without a primary span, in a file of the source's name in another directory. -/
def formReport : List Char :=
  "\x7b\"message\":\"\",\"level\":\"error\",\"spans\":[\x7b\"file_name\":\"x/SimpleView_".toList ++
    (Token.mk 0).text.toList ++ ".rs\",\"line_start\":12,\"column_start\":60\x7d]\x7d".toList

theorem placed_of_report_form : ∃ prepared, formCompiler.prepareText formTemplate = .ok prepared ∧
    (∀ resolved, formCompiler.catalogue.resolveDeclared (Scanned.ofText formTemplate).declared =
      .ok resolved → StayOnLine formCompiler.settings.view resolved.inputs) ∧
    ∃ d ∈ readReport prepared.source (formCompiler.names ⟨0⟩).source formReport,
      d.position = some (.generated 12 60 (some 3)) ∧
      ∃ line ∈ linesOf formReport, ∃ m, CompilerMessage.ofLine? (trim line) = some m ∧
        m.diagnostic? prepared.source (formCompiler.names ⟨0⟩).source = some d ∧
        Placed formCompiler.settings.view formTemplate prepared.source
          (formCompiler.names ⟨0⟩).source m d.position := by
  have hpaths : ∀ registration ∈ Catalogue.shopCalls, ∀ type ∈ registration.entry.types,
      '\n' ∉ type.path.toList := by decide +kernel
  have hnames : ∀ resolved,
      formCompiler.catalogue.resolveDeclared (Scanned.ofText formTemplate).declared =
        .ok resolved → StayOnLine formCompiler.settings.view resolved.inputs :=
    fun resolved => stayOnLine_of_resolveDeclared (by decide) (by decide) hpaths
  have hreport : (formCompiler.prepareText formTemplate).map (fun prepared =>
      (readReport prepared.source (formCompiler.names ⟨0⟩).source formReport).map
        Diagnostic.position) = .ok [some (.generated 12 60 (some 3))] := by decide +kernel
  obtain ⟨prepared, hprepared, hpositions⟩ := map_eq_ok_iff.mp hreport
  obtain ⟨d, hd, hposition⟩ := List.mem_map.mp (hpositions ▸ List.mem_singleton_self _)
  exact ⟨prepared, hprepared, hnames, d, hd, hposition,
    placed_of_report hprepared hnames ⟨0⟩ formReport d hd⟩

end Compiler

end TemplateViews
