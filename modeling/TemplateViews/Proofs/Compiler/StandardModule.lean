import TemplateViews.Config.Manifest
import TemplateViews.Proofs.Build.Arguments
import TemplateViews.Proofs.Build.Names
import TemplateViews.Proofs.Compiler.Prepared
import TemplateViews.Proofs.Links.Selection

/-! The built-in module. It comes first among the default modules of every catalogue that starts
with it, so it is a candidate for every view, and only a policy that excludes its name keeps it
from the compiler of all of them. -/

namespace TemplateViews

namespace Catalogue

/-- A catalogue that was started with the built-in module, by calls or by a manifest. -/
inductive StartsStandard : Catalogue → Prop
  | calls (calls : List Registration) : StartsStandard (calls.foldl call standard)
  | manifest (m : Manifest) : StartsStandard m.catalogue

theorem StartsStandard.exists_modules {catalogue : Catalogue} (h : catalogue.StartsStandard) :
    ∃ rest, catalogue.defaults.modules = standardModule.module :: rest := by
  have hstandard : standard.defaults.modules = [standardModule.module] := rfl
  have hcalls (calls : List Registration) : ∃ rest,
      (calls.foldl call standard).defaults.modules = standardModule.module :: rest :=
    ⟨_, by rw [modules_defaults_foldl_call, hstandard, List.singleton_append]⟩
  cases h with
  | calls calls => exact hcalls calls
  | manifest m =>
    rw [Manifest.catalogue, enter_eq_foldl_call]
    exact hcalls _

end Catalogue

theorem standardModule_linkText_iff {module : Module} :
    "std=std" = module.name ++ "=" ++ module.location.text ↔ module = standardModule.module := by
  constructor
  · intro h
    have hchars : module.name.toList ++ '=' :: module.location.text.toList =
        "std".toList ++ '=' :: "std".toList := by
      simpa using (congrArg String.toList h).symm
    -- the text has one equality sign only, so the name has none
    have hname : '=' ∉ module.name.toList := by
      have hcount := congrArg (List.count '=') hchars
      have hone : List.count '=' ("std".toList ++ '=' :: "std".toList) = 1 := rfl
      rw [List.count_append, List.count_cons_self, hone] at hcount
      exact List.count_eq_zero.mp (by omega)
    obtain ⟨hfront, hback⟩ := cut_inj hname (by decide) hchars
    obtain ⟨name, ⟨location⟩⟩ := module
    obtain rfl := String.toList_inj.mp hfront
    obtain rfl := String.toList_inj.mp hback
    rfl
  · rintro rfl
    rfl

namespace Links

variable {model handler : Option TypeTree} {rest : List Module} {policy : LinkPolicy}

/-- A module of a declared type that lies where the built-in one does and comes before it. -/
def Displaces (model handler : Option TypeTree) : Prop :=
  ∃ other ∈ firstAt? standardModule.module.place (declaredModules model ++ declaredModules handler),
    other ≠ standardModule.module

theorem accepts_standardModule_iff :
    policy.accepts standardModule.module = true ↔ "std" ∉ policy.excluded := by
  simp [LinkPolicy.accepts, standardModule, ModuleEntry.module, Path.isEmpty]

theorem standardModule_not_mem_collect_iff :
    standardModule.module ∉
        (collect model handler (standardModule.module :: rest) policy).modules ↔
      "std" ∈ policy.excluded ∨ Displaces model handler := by
  rw [mem_collect_iff, accepts_standardModule_iff, candidates_eq_append, firstAt?_append,
    firstAt?_cons, if_pos rfl, not_and', ← or_iff_not_imp_left, Displaces]
  refine or_congr_right ?_
  cases firstAt? standardModule.module.place (declaredModules model ++ declaredModules handler) with
  | none => simp
  | some other => simp

end Links

namespace Compiler

/-- The built-in module is not linked, and no build names it to its compiler. -/
structure KeepsOutStandard (compiler : Compiler) (prepared : Prepared) : Prop where
  linked : standardModule.module ∉ prepared.links.modules
  named : ∀ token, ¬ ["--extern", "std=std"] <:+:
    compiler.settings.builder.arguments (compiler.names token) prepared.links

theorem source_names_ne (compiler : Compiler) (token : Token) :
    (compiler.names token).source.text ≠ "std=std" := by
  obtain ⟨start, hbeside⟩ :=
    BuildNames.exists_beside_fresh compiler.settings.scratchDir compiler.settings.stem
  intro he
  have htext : "std=std".toList = start ++ BuildNames.sourceEnding token :=
    he ▸ (hbeside token).source.text
  have hlast := congrArg List.getLast? htext
  simp [BuildNames.sourceEnding] at hlast

theorem keepsOutStandard_iff_linked {compiler : Compiler} {prepared : Prepared} :
    compiler.KeepsOutStandard prepared ↔ standardModule.module ∉ prepared.links.modules := by
  refine ⟨KeepsOutStandard.linked, fun h => ⟨h, fun token => ?_⟩⟩
  rw [Builder.extern_infix_arguments_iff (by decide) (compiler.source_names_ne token)]
  rintro ⟨module, hmodule, htext⟩
  obtain rfl := standardModule_linkText_iff.mp htext
  exact h hmodule

variable {compiler : Compiler}

theorem exists_resolved_keepsOutStandard_iff (h : compiler.catalogue.StartsStandard)
    {template : String} {prepared : Prepared} (hprepared : compiler.prepareText template = .ok prepared) :
    ∃ resolved, compiler.catalogue.resolveDeclared (Scanned.ofText template).declared = .ok resolved ∧
      (compiler.KeepsOutStandard prepared ↔
        "std" ∈ compiler.settings.excluded ∨ Links.Displaces resolved.model resolved.handler) := by
  obtain ⟨resolved, source, hresolved, -, rfl⟩ := prepareText_eq_ok_iff.mp hprepared
  obtain ⟨rest, hrest⟩ := h.exists_modules
  refine ⟨resolved, hresolved, ?_⟩
  rw [keepsOutStandard_iff_linked, hrest]
  exact Links.standardModule_not_mem_collect_iff

/-- A template that declares nothing brings no module that could displace the built-in one. -/
theorem excluded_of_keepsOutStandard (h : compiler.catalogue.StartsStandard)
    (hengine : compiler.engine = .forName compiler.settings.view)
    (hall : ∀ template prepared, compiler.prepareText template = .ok prepared →
      compiler.KeepsOutStandard prepared) : "std" ∈ compiler.settings.excluded := by
  have hsource : ∃ source, compiler.engine.generate {} "" = .ok source := by
    rw [hengine]
    exact ⟨_, rfl⟩
  obtain ⟨source, hsource⟩ := hsource
  have hempty := prepareText_eq_ok_iff.mpr ⟨⟨none, none⟩, source, rfl, hsource, rfl⟩
  obtain ⟨resolved, hresolved, hiff⟩ := exists_resolved_keepsOutStandard_iff h hempty
  obtain rfl : (⟨none, none⟩ : Resolved) = resolved := Except.ok.inj hresolved
  refine (hiff.mp (hall _ _ hempty)).resolve_right ?_
  rintro ⟨other, hother, -⟩
  cases hother

/-- The built-in module is kept from the compiler if the policy excludes its name, or a declared
type brings another module at its place; only the former keeps it out for every template. -/
theorem standardModule_kept_out_iff (h : compiler.catalogue.StartsStandard) :
    (∀ template prepared, compiler.prepareText template = .ok prepared → ∃ resolved,
      compiler.catalogue.resolveDeclared (Scanned.ofText template).declared = .ok resolved ∧
      (compiler.KeepsOutStandard prepared ↔
        "std" ∈ compiler.settings.excluded ∨ Links.Displaces resolved.model resolved.handler)) ∧
    (compiler.engine = .forName compiler.settings.view →
      ((∀ template prepared, compiler.prepareText template = .ok prepared →
        compiler.KeepsOutStandard prepared) ↔ "std" ∈ compiler.settings.excluded)) := by
  refine ⟨fun template prepared => exists_resolved_keepsOutStandard_iff h, fun hengine =>
    ⟨excluded_of_keepsOutStandard h hengine, fun hexcluded template prepared hprepared => ?_⟩⟩
  obtain ⟨resolved, -, hiff⟩ := exists_resolved_keepsOutStandard_iff h hprepared
  exact hiff.mpr (.inl hexcluded)

def supportManifest : Manifest where
  defaults := [⟨"view_support", ⟨"/libs/libview_support.rlib"⟩, [⟨"view_support::Html", 0⟩]⟩]

theorem standardModule_kept_out_support : supportManifest.catalogue.StartsStandard ∧
    (∀ template prepared,
      (ofSettings {} supportManifest.catalogue).prepareText template = .ok prepared →
      (ofSettings {} supportManifest.catalogue).KeepsOutStandard prepared) ∧
    ((ofSettings {} supportManifest.catalogue).prepareText "@model Vec<Html>\nhi").map
      (·.links.modules) = .ok [⟨"view_support", ⟨"/libs/libview_support.rlib"⟩⟩] :=
  ⟨.manifest supportManifest,
    ((standardModule_kept_out_iff (.manifest supportManifest)).2 rfl).mpr (by decide),
    by decide +kernel⟩

/-- A policy that excludes nothing lets the built-in module through. -/
theorem standardModule_linked_unless_excluded : ∃ prepared,
    (ofSettings { excluded := [] } .standard).prepareText "hi" = .ok prepared ∧
    prepared.links.modules = [standardModule.module] ∧
    prepared.links.arguments = ["--extern", "std=std"] := by
  have hlinks : ((ofSettings { excluded := [] } .standard).prepareText "hi").map
      (fun prepared => (prepared.links.modules, prepared.links.arguments)) =
        .ok ([standardModule.module], ["--extern", "std=std"]) := by decide +kernel
  obtain ⟨prepared, hprepared, hpair⟩ := map_eq_ok_iff.mp hlinks
  obtain ⟨hmodules, harguments⟩ := Prod.mk.inj hpair
  exact ⟨prepared, hprepared, hmodules, harguments⟩

end Compiler

end TemplateViews
