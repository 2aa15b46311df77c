import Mathlib.Data.List.Basic
import TemplateViews.Links

/-! Selected links. The first module at each place decides: it is linked if the policy accepts
it, and no other module of its place is. -/

namespace TemplateViews

/-- Where a module lies, however its location is written. -/
def Module.place (module : Module) : List Path.Component := module.location.components

namespace Links

def places (links : Links) : List (List Path.Component) := links.modules.map Module.place

def firstAt? (place : List Path.Component) (modules : List Module) : Option Module :=
  modules.find? (·.place = place)

/-- The modules of a declared type and of its arguments. -/
def declaredModules (type : Option TypeTree) : List Module := type.toList.flatMap TypeTree.modules

variable {policy : LinkPolicy} {modules more : List Module} {module other : Module}
  {place : List Path.Component} {seen : List (List Path.Component)}

theorem firstAt?_cons : firstAt? place (module :: modules) =
    if module.place = place then some module else firstAt? place modules := by
  rw [firstAt?, List.find?_cons]
  split <;> simp_all [firstAt?]

theorem firstAt?_append : firstAt? place (modules ++ more) =
    (firstAt? place modules).or (firstAt? place more) := List.find?_append

theorem firstAt?_eq_some_iff : firstAt? place modules = some module ↔
    module.place = place ∧ ∃ before after, modules = before ++ module :: after ∧
      ∀ other ∈ before, other.place ≠ place := by
  simp [firstAt?, List.find?_eq_some_iff_append]

theorem firstAt?_eq_none_iff : firstAt? place modules = none ↔
    ∀ module ∈ modules, module.place ≠ place := by
  simp [firstAt?]

theorem place_of_firstAt? (h : firstAt? place modules = some module) : module.place = place :=
  (firstAt?_eq_some_iff.mp h).1

theorem mem_of_firstAt? (h : firstAt? place modules = some module) : module ∈ modules :=
  List.mem_of_find?_eq_some h

theorem exists_firstAt? (h : module ∈ modules) : ∃ first, firstAt? module.place modules = some first := by
  refine Option.ne_none_iff_exists'.mp fun hnone => ?_
  exact firstAt?_eq_none_iff.mp hnone module h rfl

theorem select_cons : select policy seen (module :: modules) =
    if module.place ∈ seen then select policy seen modules
    else if policy.accepts module then module :: select policy (module.place :: seen) modules
    else select policy (module.place :: seen) modules := rfl

/-- A module is selected if it is the first at a place that was not seen before. -/
theorem mem_select_iff : module ∈ select policy seen modules ↔
    module.place ∉ seen ∧ firstAt? module.place modules = some module ∧
      policy.accepts module = true := by
  induction modules generalizing seen with
  | nil => simp [select, firstAt?]
  | cons first rest ih =>
    rw [select_cons, firstAt?_cons]
    by_cases hplace : first.place = module.place
    · -- the module can only be the first one, since its place counts as seen behind it
      rw [if_pos hplace, Option.some_inj, hplace]
      split
      · next hseen => simp [ih, hseen]
      · next hseen =>
        split
        · next haccepts =>
          rw [List.mem_cons, ih]
          constructor
          · rintro (rfl | hrest)
            · exact ⟨hseen, rfl, haccepts⟩
            · exact absurd List.mem_cons_self hrest.1
          · rintro ⟨-, rfl, -⟩
            exact .inl rfl
        · next hrefused =>
          rw [ih]
          constructor
          · intro hrest
            exact absurd List.mem_cons_self hrest.1
          · rintro ⟨-, rfl, haccepts⟩
            exact absurd haccepts hrefused
    · have hne : module ≠ first := fun he => hplace (he ▸ rfl)
      have hseen : module.place ∉ first.place :: seen ↔ module.place ∉ seen := by
        rw [List.mem_cons, or_iff_right (Ne.symm hplace)]
      rw [if_neg hplace]
      split
      · exact ih
      · split
        · rw [List.mem_cons, or_iff_right hne, ih, hseen]
        · rw [ih, hseen]

section Collected

variable {model handler : Option TypeTree} {baseline : List Module}

theorem candidates_eq_append : candidates model handler baseline =
    declaredModules model ++ declaredModules handler ++ baseline := rfl

theorem mem_collect_iff : module ∈ (collect model handler baseline policy).modules ↔
    firstAt? module.place (candidates model handler baseline) = some module ∧
      policy.accepts module = true := by
  rw [collect, mem_select_iff]
  exact and_iff_right List.not_mem_nil

theorem mem_places_collect_iff : place ∈ (collect model handler baseline policy).places ↔
    ∃ module, firstAt? place (candidates model handler baseline) = some module ∧
      policy.accepts module = true := by
  rw [places, List.mem_map]
  constructor
  · rintro ⟨module, hmodule, rfl⟩
    exact ⟨module, mem_collect_iff.mp hmodule⟩
  · rintro ⟨module, hfirst, haccepts⟩
    obtain rfl := place_of_firstAt? hfirst
    exact ⟨module, mem_collect_iff.mpr ⟨hfirst, haccepts⟩, rfl⟩

end Collected

end Links

end TemplateViews
