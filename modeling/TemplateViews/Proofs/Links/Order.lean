import Mathlib.Data.List.Perm.Basic
import TemplateViews.Proofs.Links.Selection

/-! What the order of modules decides. A place is linked exactly if the first module there is
accepted, so a refused module may hide an accepted one behind it. The order of the declared
types and of the baseline is without effect exactly if no two modules that may both come first
at a place are treated differently. -/

namespace TemplateViews.Links

/-- Some module at a place is accepted. -/
def Offers (policy : LinkPolicy) (modules : List Module) (place : List Path.Component) : Prop :=
  ∃ module ∈ modules, module.place = place ∧ policy.accepts module = true

/-- A refused module is the first at its place and stands in front of an accepted one. -/
def Hides (policy : LinkPolicy) (modules : List Module) : Prop :=
  ∃ before refused after, modules = before ++ refused :: after ∧
    policy.accepts refused = false ∧ (∀ other ∈ before, other.place ≠ refused.place) ∧
    ∃ other ∈ after, other.place = refused.place ∧ policy.accepts other = true

def SamePlaces (links other : Links) : Prop := ∀ place, place ∈ links.places ↔ place ∈ other.places

/-- Modules that come first at the same place of either list are both accepted or both refused. -/
def AgreeOnFirst (policy : LinkPolicy) (modules more : List Module) : Prop :=
  ∀ place, ∀ module ∈ firstAt? place modules, ∀ other ∈ firstAt? place more,
    policy.accepts module = policy.accepts other

/-- At a place where no module stands in front, all modules are accepted or all are refused. -/
def AlikeBehind (policy : LinkPolicy) (front modules : List Module) : Prop :=
  ∀ module ∈ modules, ∀ other ∈ modules, module.place = other.place →
    (∀ first ∈ front, first.place ≠ module.place) → policy.accepts module = policy.accepts other

section Verdicts

variable {policy : LinkPolicy} {modules : List Module} {place : List Path.Component}

theorem firstAt?_accepted_of_offers (hhides : ¬ Hides policy modules)
    (h : Offers policy modules place) :
    ∃ module, firstAt? place modules = some module ∧ policy.accepts module = true := by
  obtain ⟨other, hother, rfl, haccepts⟩ := h
  obtain ⟨first, hfirst⟩ := exists_firstAt? hother
  refine ⟨first, hfirst, by_contra fun hrefused => hhides ?_⟩
  obtain ⟨hplace, before, after, rfl, hbefore⟩ := firstAt?_eq_some_iff.mp hfirst
  have hafter : other ∈ after := by
    have hne : other ≠ first := fun he => hrefused (he ▸ haccepts)
    have hnotBefore : other ∉ before := fun hmem => hbefore other hmem rfl
    simpa [hnotBefore, hne] using hother
  exact ⟨before, first, after, rfl, Bool.eq_false_iff.mpr hrefused,
    fun module hmodule => hplace ▸ hbefore module hmodule, other, hafter, hplace.symm, haccepts⟩

/-- The first modules are accepted wherever one is, exactly if no refused one hides another. -/
theorem offers_iff_firstAt?_iff :
    (∀ place, (∃ module, firstAt? place modules = some module ∧ policy.accepts module = true) ↔
      Offers policy modules place) ↔ ¬ Hides policy modules := by
  constructor
  · rintro h ⟨before, refused, after, rfl, hrefused, hbefore, other, hother, hplace, haccepts⟩
    have hoffers : Offers policy (before ++ refused :: after) refused.place :=
      ⟨other, by simp [hother], hplace, haccepts⟩
    obtain ⟨first, hfirst, hfirstAccepts⟩ := (h refused.place).mpr hoffers
    have hrefusedFirst := firstAt?_eq_some_iff.mpr ⟨rfl, before, after, rfl, hbefore⟩
    obtain rfl := Option.some.inj (hfirst.symm.trans hrefusedFirst)
    rw [hrefused] at hfirstAccepts
    exact Bool.false_ne_true hfirstAccepts
  · intro hhides place
    constructor
    · rintro ⟨module, hfirst, haccepts⟩
      exact ⟨module, mem_of_firstAt? hfirst, place_of_firstAt? hfirst, haccepts⟩
    · exact firstAt?_accepted_of_offers hhides

end Verdicts

section Alike

variable {policy : LinkPolicy} {front modules other : List Module} {place : List Path.Component}

theorem AlikeBehind.perm (h : AlikeBehind policy front modules) (hperm : modules.Perm other) :
    AlikeBehind policy front other := fun module hmodule second hsecond =>
  h module (hperm.mem_iff.mpr hmodule) second (hperm.mem_iff.mpr hsecond)

/-- Where the modules of a place are treated alike, any of them may come first. -/
theorem AlikeBehind.accepted_first (h : AlikeBehind policy front modules)
    (hperm : modules.Perm other) (hfront : ∀ first ∈ front, first.place ≠ place) :
    (∃ module, firstAt? place modules = some module ∧ policy.accepts module = true) →
      ∃ module, firstAt? place other = some module ∧ policy.accepts module = true := by
  rintro ⟨module, hfirst, haccepts⟩
  obtain rfl := place_of_firstAt? hfirst
  have hmodule := mem_of_firstAt? hfirst
  obtain ⟨second, hsecond⟩ := exists_firstAt? (hperm.mem_iff.mp hmodule)
  refine ⟨second, hsecond, ?_⟩
  rwa [← h module hmodule second (hperm.mem_iff.mpr (mem_of_firstAt? hsecond))
    (place_of_firstAt? hsecond).symm hfront]

end Alike

section Orders

variable {model handler : Option TypeTree} {baseline : List Module} {policy : LinkPolicy}
  {place : List Path.Component}

theorem mem_places_iff_firstAt? : place ∈ (collect model handler baseline policy).places ↔
    ((((firstAt? place (declaredModules model)).or (firstAt? place (declaredModules handler))).or
      (firstAt? place baseline)).map policy.accepts) = some true := by
  rw [mem_places_collect_iff, candidates_eq_append, firstAt?_append, firstAt?_append,
    Option.map_eq_some_iff]

theorem samePlaces_swap_iff :
    SamePlaces (collect handler model baseline policy) (collect model handler baseline policy) ↔
      AgreeOnFirst policy (declaredModules model) (declaredModules handler) := by
  unfold SamePlaces AgreeOnFirst
  refine forall_congr' fun place => ?_
  rw [mem_places_iff_firstAt?, mem_places_iff_firstAt?]
  cases firstAt? place (declaredModules model) with
  | none => simp
  | some module =>
    cases firstAt? place (declaredModules handler) with
    | none => simp
    | some other =>
      simp only [Option.some_or, Option.map_some, Option.some.injEq, Option.mem_some, forall_eq']
      cases policy.accepts module <;> cases policy.accepts other <;> decide

/-- A place that no module in front takes is left to the first module of the baseline. -/
theorem mem_places_of_none (hfront : ∀ first ∈ declaredModules model ++ declaredModules handler,
      first.place ≠ place) :
    place ∈ (collect model handler baseline policy).places ↔
      ∃ module, firstAt? place baseline = some module ∧ policy.accepts module = true := by
  have hnone := firstAt?_eq_none_iff.mpr hfront
  rw [firstAt?_append] at hnone
  rw [mem_places_iff_firstAt?, hnone, Option.none_or, Option.map_eq_some_iff]

theorem samePlaces_perm_iff :
    (∀ other, other.Perm baseline →
      SamePlaces (collect model handler other policy) (collect model handler baseline policy)) ↔
      AlikeBehind policy (declaredModules model ++ declaredModules handler) baseline := by
  constructor
  · intro h module hmodule other hother hplace hfront
    -- in some order of the baseline each of the two comes first
    have hmoved {first : Module} (hfirst : first ∈ baseline) (hat : first.place = module.place) :
        module.place ∈ (collect model handler baseline policy).places ↔
          policy.accepts first = true := by
      rw [← h (first :: baseline.erase first) (List.perm_cons_erase hfirst).symm,
        mem_places_of_none hfront, firstAt?_cons, if_pos hat]
      simp
    rw [Bool.eq_iff_iff, ← hmoved hmodule rfl, hmoved hother hplace.symm]
  · intro halike other hperm place
    by_cases hfront : ∀ first ∈ declaredModules model ++ declaredModules handler,
        first.place ≠ place
    · rw [mem_places_of_none hfront, mem_places_of_none hfront]
      exact ⟨(halike.perm hperm.symm).accepted_first hperm hfront,
        halike.accepted_first hperm.symm hfront⟩
    · have hsome : ∃ first, firstAt? place (declaredModules model ++ declaredModules handler) =
          some first :=
        Option.ne_none_iff_exists'.mp fun hnone => hfront (firstAt?_eq_none_iff.mp hnone)
      obtain ⟨first, hfirst⟩ := hsome
      rw [firstAt?_append] at hfirst
      rw [mem_places_iff_firstAt?, mem_places_iff_firstAt?, hfirst, Option.some_or, Option.some_or]

end Orders

/-- The module that comes first at a place decides for it. The order of modules is without effect
exactly if no refused module hides an accepted one, the declared types agree on the modules that
come first, and the baseline treats those of a place alike. -/
theorem places_collect_whatever_order (model handler : Option TypeTree) (baseline : List Module)
    (policy : LinkPolicy) :
    (∀ place, place ∈ (collect model handler baseline policy).places ↔
      ∃ module, firstAt? place (candidates model handler baseline) = some module ∧
        policy.accepts module = true) ∧
    ((∀ place, place ∈ (collect model handler baseline policy).places ↔
        Offers policy (candidates model handler baseline) place) ↔
      ¬ Hides policy (candidates model handler baseline)) ∧
    (SamePlaces (collect handler model baseline policy) (collect model handler baseline policy) ↔
      AgreeOnFirst policy (declaredModules model) (declaredModules handler)) ∧
    ((∀ other, other.Perm baseline →
        SamePlaces (collect model handler other policy) (collect model handler baseline policy)) ↔
      AlikeBehind policy (declaredModules model ++ declaredModules handler) baseline) := by
  refine ⟨fun _ => mem_places_collect_iff, ?_, samePlaces_swap_iff, samePlaces_perm_iff⟩
  simp only [mem_places_collect_iff]
  exact offers_iff_firstAt?_iff

/-- The library of a shop under two names, one of which the policy refuses. -/
def shopAs (name : String) : Module := ⟨name, ⟨"/libs/libshop.rlib"⟩⟩

/-- Behind a refused name the same library is not linked, in front of it it is. -/
theorem shop_hidden_behind_old_name :
    shopAs "shop" ∈ candidates none none [shopAs "old_shop", shopAs "shop"] ∧
    LinkPolicy.accepts ⟨["old_shop"]⟩ (shopAs "shop") = true ∧
    (collect none none [shopAs "old_shop", shopAs "shop"] ⟨["old_shop"]⟩).places = [] ∧
    (collect none none [shopAs "shop", shopAs "old_shop"] ⟨["old_shop"]⟩).places =
      [(shopAs "shop").place] := by
  decide +kernel

end TemplateViews.Links
