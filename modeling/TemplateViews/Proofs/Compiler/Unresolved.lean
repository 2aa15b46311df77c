import TemplateViews.Proofs.Compiler.Prepared
import TemplateViews.Proofs.Template.First
import TemplateViews.Proofs.Types.Resolution

/-! Declarations whose types do not resolve. All of them are reported before a source is
generated, the model's first, and what else can go wrong is the markup. -/

namespace TemplateViews

open Catalogue

def Unresolved (catalogue : Catalogue) (template : String) (keyword : Keyword)
    (d : Declaration) (e : TypeError) : Prop :=
  FirstDeclared template keyword d ∧ catalogue.resolve d.typeText = .error e

structure ReportedAs (d : Declaration) (e : TypeError) (diagnostic : Diagnostic) : Prop where
  severity : diagnostic.severity = .error
  code : diagnostic.code = none
  position : diagnostic.position = some (.template d.line)
  nameless : d.typeText = "" →
    diagnostic.message = "`" ++ d.keyword.token ++ "` directive has no type name"
  named : d.typeText ≠ "" → diagnostic.message =
    "cannot resolve `" ++ d.keyword.token ++ " " ++ d.typeText ++ "`: " ++ e.message

/-- What is reported for a keyword: one error if its declaration does not resolve. -/
inductive ReportOf (catalogue : Catalogue) (template : String) (keyword : Keyword) :
    List Diagnostic → Prop
  | nothing (h : ∀ d e, ¬ Unresolved catalogue template keyword d e) :
      ReportOf catalogue template keyword []
  | error {d : Declaration} {e : TypeError} {diagnostic : Diagnostic}
      (h : Unresolved catalogue template keyword d e) (hreport : ReportedAs d e diagnostic) :
      ReportOf catalogue template keyword [diagnostic]

section Declarations

variable {catalogue : Catalogue} {template : String} {keyword : Keyword} {d : Declaration}
  {e : TypeError} {diagnostic : Diagnostic}

theorem FirstDeclared.unique {other : Declaration} (h : FirstDeclared template keyword d)
    (hother : FirstDeclared template keyword other) : d = other :=
  Option.some.inj ((Declared.of_eq_some_iff.mpr h).symm.trans (Declared.of_eq_some_iff.mpr hother))

theorem FirstDeclared.trim_typeText_eq_nil_iff (h : FirstDeclared template keyword d) :
    trim d.typeText.toList = [] ↔ d.typeText = "" := by
  cases h with
  | @intro before after line rest hlines hbefore hline =>
    rw [String.toList_ofList, trim_trim_eq_nil_iff, String.ofList_eq_empty_iff]

/-- A type is missing exactly if the first line with the token is the token alone. -/
theorem FirstDeclared.typeText_eq_empty_iff (h : FirstDeclared template keyword d) :
    d.typeText = "" ↔ ∃ before line after, linesOf template.toList = before ++ line :: after ∧
      (∀ earlier ∈ before, ¬ keyword.Starts earlier) ∧ trim line = keyword.token.toList := by
  constructor
  · intro hempty
    cases h with
    | @intro before after line rest hlines hbefore hline =>
      have hblank := trim_eq_nil_iff.mp (String.ofList_eq_empty_iff.mp hempty)
      have hrest : rest = [] := by
        by_contra hne
        have hlast : (trim line).getLast? = some (rest.getLast hne) := by
          rw [hline, List.getLast?_append, List.getLast?_eq_some_getLast hne, Option.some_or]
        have hvisible : isBlank (rest.getLast hne) = false :=
          not_blank_of_mem_getLast?_trimEnd _ hlast
        rw [hblank _ (List.getLast_mem hne)] at hvisible
        cases hvisible
      rw [hrest, List.append_nil] at hline
      exact ⟨before, line, after, hlines, hbefore, hline⟩
  · intro hline
    obtain ⟨before, line, after, hlines, hbefore, hline⟩ := hline
    have hbare : trim line = keyword.token.toList ++ [] := by rw [hline, List.append_nil]
    rw [h.unique (.intro hlines hbefore hbare)]
    rfl

theorem Unresolved.eq_empty_iff (h : Unresolved catalogue template keyword d e) :
    e = .empty ↔ d.typeText = "" := by
  rw [← h.1.trim_typeText_eq_nil_iff, ← @resolve_eq_empty_iff catalogue, h.2,
    Except.error.injEq]

theorem Unresolved.reportedAs (h : Unresolved catalogue template keyword d e) :
    ReportedAs d e (d.diagnostic e) where
  severity := rfl
  code := rfl
  position := rfl
  nameless := by
    intro hempty
    have hmessage : (d.diagnostic e).message =
        "`" ++ d.keyword.token ++ "` " ++ e.message := if_pos hempty
    have htext : "` " ++ TypeError.empty.message = "` directive has no type name" := by decide
    rw [hmessage, h.eq_empty_iff.mpr hempty, String.append_assoc, htext]
  named := by
    intro hne
    exact if_neg hne

theorem ReportedAs.unique {other : Diagnostic} (h : ReportedAs d e diagnostic)
    (hother : ReportedAs d e other) : diagnostic = other := by
  have hmessage : diagnostic.message = other.message := by
    by_cases hempty : d.typeText = ""
    · rw [h.nameless hempty, hother.nameless hempty]
    · rw [h.named hempty, hother.named hempty]
  obtain ⟨severity, message, code, position⟩ := diagnostic
  obtain ⟨severity', message', code', position'⟩ := other
  obtain rfl := h.severity.trans hother.severity.symm
  obtain rfl := h.code.trans hother.code.symm
  obtain rfl := h.position.trans hother.position.symm
  obtain rfl : message = message' := hmessage
  rfl

/-- The two wordings differ in their first letter. -/
theorem ReportedAs.nameless_iff (h : ReportedAs d e diagnostic) : diagnostic.message =
    "`" ++ d.keyword.token ++ "` directive has no type name" ↔ d.typeText = "" := by
  constructor
  · intro hmessage
    by_contra hne
    rw [h.named hne] at hmessage
    have hfirst := congrArg (fun text => text.toList.head?) hmessage
    simp at hfirst
  · exact h.nameless

end Declarations

section Reports

variable {catalogue : Catalogue} {template : String} {keyword : Keyword}
  {diagnostics model handler : List Diagnostic}

theorem exists_reportOf (catalogue : Catalogue) (template : String) (keyword : Keyword) :
    ∃ diagnostics, ReportOf catalogue template keyword diagnostics := by
  by_cases h : ∃ d e, Unresolved catalogue template keyword d e
  · obtain ⟨d, e, hunresolved⟩ := h
    exact ⟨_, .error hunresolved hunresolved.reportedAs⟩
  · exact ⟨[], .nothing fun d e hunresolved => h ⟨d, e, hunresolved⟩⟩

theorem ReportOf.ne_nil_iff (h : ReportOf catalogue template keyword diagnostics) :
    diagnostics ≠ [] ↔ ∃ d e, Unresolved catalogue template keyword d e := by
  cases h with
  | nothing hnone =>
    constructor
    · exact fun hne => absurd rfl hne
    · intro hsome
      obtain ⟨d, e, hunresolved⟩ := hsome
      exact absurd hunresolved (hnone d e)
  | @error d e _ hunresolved => exact iff_of_true (List.cons_ne_nil _ _) ⟨d, e, hunresolved⟩

theorem ReportOf.resolveDeclaration (h : ReportOf catalogue template keyword diagnostics) :
    (diagnostics = [] ∧ ∃ tree,
      catalogue.resolveDeclaration ((Declared.ofText template).of keyword) = .ok tree) ∨
    ∃ diagnostic, diagnostics = [diagnostic] ∧
      catalogue.resolveDeclaration ((Declared.ofText template).of keyword) = .error diagnostic := by
  cases h with
  | nothing hnone =>
    refine .inl ⟨rfl, ?_⟩
    cases hdeclared : (Declared.ofText template).of keyword with
    | none => exact ⟨none, rfl⟩
    | some d =>
      have hfirst := Declared.of_eq_some_iff.mp hdeclared
      cases hresolve : catalogue.resolve d.typeText with
      | ok tree => exact ⟨some tree, by rw [Catalogue.resolveDeclaration, hresolve]⟩
      | error e => exact absurd ⟨hfirst, hresolve⟩ (hnone d e)
  | @error d e diagnostic hunresolved hreport =>
    refine .inr ⟨diagnostic, rfl, ?_⟩
    rw [Declared.of_eq_some_iff.mpr hunresolved.1, Catalogue.resolveDeclaration, hunresolved.2,
      hreport.unique hunresolved.reportedAs]

/-- Both declarations are resolved before anything is reported, the model's error first. -/
theorem resolveDeclared_of_reportOf (hmodel : ReportOf catalogue template .model model)
    (hhandler : ReportOf catalogue template .handler handler) :
    (model ++ handler = [] ∧
      ∃ resolved, catalogue.resolveDeclared (Declared.ofText template) = .ok resolved) ∨
    (model ++ handler ≠ [] ∧
      catalogue.resolveDeclared (Declared.ofText template) = .error (model ++ handler)) := by
  have hm := hmodel.resolveDeclaration
  have hh := hhandler.resolveDeclaration
  simp only [Declared.of] at hm hh
  rw [resolveDeclared]
  rcases hm with ⟨rfl, tree, hm⟩ | ⟨first, rfl, hm⟩ <;>
    rcases hh with ⟨rfl, tree', hh⟩ | ⟨second, rfl, hh⟩ <;> simp [hm, hh]

theorem resolveDeclared_eq_error_iff :
    catalogue.resolveDeclared (Declared.ofText template) = .error diagnostics ↔
      diagnostics ≠ [] ∧ ∃ model handler, ReportOf catalogue template .model model ∧
        ReportOf catalogue template .handler handler ∧ diagnostics = model ++ handler := by
  constructor
  · intro h
    obtain ⟨model, hmodel⟩ := exists_reportOf catalogue template .model
    obtain ⟨handler, hhandler⟩ := exists_reportOf catalogue template .handler
    rcases resolveDeclared_of_reportOf hmodel hhandler with ⟨-, resolved, hok⟩ | ⟨hne, herror⟩
    · cases hok.symm.trans h
    · obtain rfl := Except.error.inj (herror.symm.trans h)
      exact ⟨hne, model, handler, hmodel, hhandler, rfl⟩
  · intro h
    obtain ⟨hne, model, handler, hmodel, hhandler, rfl⟩ := h
    rcases resolveDeclared_of_reportOf hmodel hhandler with ⟨hnil, -⟩ | ⟨-, herror⟩
    · exact absurd hnil hne
    · exact herror

theorem exists_resolveDeclared_error_iff :
    (∃ diagnostics, catalogue.resolveDeclared (Declared.ofText template) = .error diagnostics) ↔
      ∃ keyword d e, Unresolved catalogue template keyword d e := by
  obtain ⟨model, hmodel⟩ := exists_reportOf catalogue template .model
  obtain ⟨handler, hhandler⟩ := exists_reportOf catalogue template .handler
  have hreports : model ++ handler ≠ [] ↔ ∃ keyword d e, Unresolved catalogue template keyword d e := by
    rw [Ne, List.append_eq_nil_iff, not_and_or, ← Ne, ← Ne, hmodel.ne_nil_iff, hhandler.ne_nil_iff]
    constructor
    · intro h
      rcases h with h | h
      · exact ⟨.model, h⟩
      · exact ⟨.handler, h⟩
    · intro h
      obtain ⟨keyword, h⟩ := h
      cases keyword with
      | model => exact .inl h
      | handler => exact .inr h
  rw [← hreports]
  constructor
  · intro h
    obtain ⟨diagnostics, h⟩ := h
    rcases resolveDeclared_of_reportOf hmodel hhandler with ⟨-, resolved, hok⟩ | ⟨hne, -⟩
    · cases hok.symm.trans h
    · exact hne
  · intro hne
    rcases resolveDeclared_of_reportOf hmodel hhandler with ⟨hnil, -⟩ | ⟨-, herror⟩
    · exact absurd hnil hne
    · exact ⟨_, herror⟩

end Reports

namespace Compiler

variable {compiler : Compiler} {template : String}

theorem prepareText_eq_rejected_iff {diagnostics : List Diagnostic} :
    compiler.prepareText template = .error (.rejected diagnostics) ↔
      compiler.catalogue.resolveDeclared (Declared.ofText template) = .error diagnostics := by
  rw [prepareText, prepare, Scanned.ofText]
  dsimp only
  cases compiler.catalogue.resolveDeclared (Declared.ofText template) with
  | error others => simp
  | ok resolved =>
    dsimp only
    cases compiler.engine.generate resolved.inputs template <;> simp

theorem prepareText_of_resolveDeclared {resolved : Resolved}
    (h : compiler.catalogue.resolveDeclared (Declared.ofText template) = .ok resolved)
    (failure : Failure) : compiler.prepareText template = .error failure ↔
      ∃ e, compiler.engine.generate resolved.inputs template = .error e ∧ failure = .markup e := by
  rw [prepareText, prepare, Scanned.ofText]
  dsimp only
  rw [h]
  dsimp only
  cases compiler.engine.generate resolved.inputs template with
  | error e => simp [eq_comm]
  | ok source => simp

/-- Declarations that do not resolve are reported in full and before all else, and if there are
none only the markup can be refused. -/
structure ReportsUnresolved (compiler : Compiler) (template : String) : Prop where
  fails : (∃ diagnostics, compiler.prepareText template = .error (.rejected diagnostics)) ↔
    ∃ keyword d e, Unresolved compiler.catalogue template keyword d e
  reports : ∀ diagnostics, compiler.prepareText template = .error (.rejected diagnostics) ↔
    diagnostics ≠ [] ∧ ∃ model handler, ReportOf compiler.catalogue template .model model ∧
      ReportOf compiler.catalogue template .handler handler ∧ diagnostics = model ++ handler
  /-- Exactly those declarations are said to have no type name behind whose token is nothing. -/
  wording : ∀ keyword d e diagnostic, Unresolved compiler.catalogue template keyword d e →
    ReportedAs d e diagnostic →
    (diagnostic.message = "`" ++ d.keyword.token ++ "` directive has no type name" ↔
      ∃ before line after, linesOf template.toList = before ++ line :: after ∧
        (∀ earlier ∈ before, ¬ keyword.Starts earlier) ∧ trim line = keyword.token.toList) ∧
    (e = .empty ↔ d.typeText = "")
  engine : (∃ keyword d e, Unresolved compiler.catalogue template keyword d e) →
    ∀ engine, { compiler with engine }.prepareText template = compiler.prepareText template
  markup : (∀ keyword d e, ¬ Unresolved compiler.catalogue template keyword d e) →
    ∃ resolved : Resolved,
      compiler.catalogue.DeclaredAs (Declared.ofText template).model resolved.model ∧
      compiler.catalogue.DeclaredAs (Declared.ofText template).handler resolved.handler ∧
      ∀ failure, compiler.prepareText template = .error failure ↔
        ∃ e, compiler.engine.generate resolved.inputs template = .error e ∧ failure = .markup e

theorem reports_unresolved (compiler : Compiler) (template : String) :
    ReportsUnresolved compiler template where
  fails := by
    simp only [prepareText_eq_rejected_iff]
    exact exists_resolveDeclared_error_iff
  reports := by
    intro diagnostics
    rw [prepareText_eq_rejected_iff]
    exact resolveDeclared_eq_error_iff
  wording := by
    intro keyword d e diagnostic h hreport
    exact ⟨hreport.nameless_iff.trans h.1.typeText_eq_empty_iff, h.eq_empty_iff⟩
  engine := by
    intro h engine
    obtain ⟨diagnostics, hfails⟩ := exists_resolveDeclared_error_iff.mpr h
    have hprepare : compiler.prepareText template = .error (.rejected diagnostics) :=
      prepareText_eq_rejected_iff.mpr hfails
    rw [hprepare]
    exact prepareText_eq_rejected_iff.mpr hfails
  markup := by
    intro h
    cases hdeclared : compiler.catalogue.resolveDeclared (Declared.ofText template) with
    | error diagnostics =>
      obtain ⟨keyword, d, e, hunresolved⟩ :=
        exists_resolveDeclared_error_iff.mp ⟨diagnostics, hdeclared⟩
      exact absurd hunresolved (h keyword d e)
    | ok resolved =>
      obtain ⟨hmodel, hhandler⟩ := resolveDeclared_eq_ok_iff.mp hdeclared
      exact ⟨resolved, hmodel, hhandler, prepareText_of_resolveDeclared hdeclared⟩

end Compiler

end TemplateViews
