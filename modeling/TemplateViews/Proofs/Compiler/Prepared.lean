import TemplateViews.Compiler
import TemplateViews.Proofs.Outcome
import TemplateViews.Proofs.Source.Frame
import TemplateViews.Proofs.Types.Text

/-! What is prepared for a template: the types it declares are resolved, and the source is
generated for them. -/

namespace TemplateViews

namespace Catalogue

variable {catalogue : Catalogue}

/-- The type that a declaration resolves to, and none without a declaration. -/
inductive DeclaredAs (catalogue : Catalogue) : Option Declaration → Option TypeTree → Prop
  | absent : DeclaredAs catalogue none none
  | resolved {d : Declaration} {tree : TypeTree} (h : catalogue.resolve d.typeText = .ok tree) :
    DeclaredAs catalogue (some d) (some tree)

theorem resolveDeclaration_eq_ok_iff {declaration : Option Declaration} {tree : Option TypeTree} :
    catalogue.resolveDeclaration declaration = .ok tree ↔
      catalogue.DeclaredAs declaration tree := by
  cases declaration with
  | none =>
    constructor
    · intro h
      obtain rfl := Except.ok.inj h
      exact .absent
    · intro h
      cases h
      rfl
  | some d =>
    unfold resolveDeclaration
    dsimp only
    split
    · next found hresolve =>
      constructor
      · intro h
        obtain rfl := Except.ok.inj h
        exact .resolved hresolve
      · intro h
        cases h with
        | resolved hother => rw [Except.ok.inj (hresolve.symm.trans hother)]
    · next e hresolve =>
      constructor
      · intro h
        cases h
      · intro h
        cases h with
        | resolved hother => cases hresolve.symm.trans hother

theorem resolveDeclared_eq_ok_iff {declared : Declared} {resolved : Resolved} :
    catalogue.resolveDeclared declared = .ok resolved ↔
      catalogue.DeclaredAs declared.model resolved.model ∧
      catalogue.DeclaredAs declared.handler resolved.handler := by
  obtain ⟨model, handler⟩ := resolved
  rw [← resolveDeclaration_eq_ok_iff, ← resolveDeclaration_eq_ok_iff, resolveDeclared]
  cases catalogue.resolveDeclaration declared.model with
  | error e => cases catalogue.resolveDeclaration declared.handler <;> simp
  | ok model => cases catalogue.resolveDeclaration declared.handler <;> simp

theorem DeclaredAs.exists_resolve {declaration : Option Declaration} {tree : Option TypeTree}
    {found : TypeTree} (h : catalogue.DeclaredAs declaration tree) (hfound : found ∈ tree) :
    ∃ text, catalogue.resolve text = .ok found := by
  cases h with
  | absent => cases hfound
  | resolved hresolve =>
    obtain rfl := Option.some.inj hfound
    exact ⟨_, hresolve⟩

end Catalogue

namespace Compiler

variable {settings : Settings} {catalogue : Catalogue} {template : String} {prepared : Prepared}

theorem prepareText_eq_ok_iff {compiler : Compiler} :
    compiler.prepareText template = .ok prepared ↔ ∃ resolved source,
      compiler.catalogue.resolveDeclared (Scanned.ofText template).declared = .ok resolved ∧
      compiler.engine.generate resolved.inputs template = .ok source ∧
      prepared = ⟨source, Links.collect resolved.model resolved.handler
        compiler.catalogue.defaults.modules compiler.settings.policy⟩ := by
  unfold prepareText prepare
  dsimp only [Scanned.ofText]
  split
  · next diagnostics hresolved => simp [hresolved]
  · next resolved hresolved =>
    split
    · next e hsource => simp [hresolved, hsource]
    · next source hsource => simp [hresolved, hsource, eq_comm]

theorem exists_resolved_of_prepareText
    (h : (ofSettings settings catalogue).prepareText template = .ok prepared) : ∃ resolved,
      catalogue.resolveDeclared (Scanned.ofText template).declared = .ok resolved ∧
      generate settings.view resolved.inputs template = .ok prepared.source := by
  obtain ⟨resolved, source, hresolved, hsource, rfl⟩ := prepareText_eq_ok_iff.mp h
  exact ⟨resolved, hresolved, hsource⟩

/-- Names without line feeds make a frame of lines, whatever a template declares. -/
theorem stayOnLine_of_resolveDeclared {calls : List Registration} {name : ViewName}
    {declared : Declared} {resolved : Resolved} (hscope : '\n' ∉ name.scope.toList)
    (htype : '\n' ∉ name.type.toList)
    (hpaths : ∀ registration ∈ calls, ∀ type ∈ registration.entry.types, '\n' ∉ type.path.toList)
    (h : (Catalogue.ofCalls calls).resolveDeclared declared = .ok resolved) :
    StayOnLine name resolved.inputs := by
  obtain ⟨hmodel, hhandler⟩ := Catalogue.resolveDeclared_eq_ok_iff.mp h
  have htext {declaration : Option Declaration} {tree : Option TypeTree}
      (hdeclared : (Catalogue.ofCalls calls).DeclaredAs declaration tree) :
      ∀ text ∈ tree.map TypeTree.text, '\n' ∉ text.toList := by
    intro text htext
    obtain ⟨found, hfound, rfl⟩ := Option.map_eq_some_iff.mp htext
    obtain ⟨text, htree⟩ := hdeclared.exists_resolve hfound
    exact Catalogue.newline_not_mem_text_of_resolve hpaths htree
  exact ⟨hscope, htype, htext hmodel, htext hhandler⟩

end Compiler

end TemplateViews
