import TemplateViews.Types.Catalogue

/-! Catalogues made by calls that add modules. In whatever order the calls come, a search
finds the first type that answers to a base, the types of default modules before all
others and those of a tier as it was filled. -/

namespace TemplateViews

/-- A call that adds a module to a tier. -/
inductive Registration
  | default (entry : ModuleEntry)
  | registered (entry : ModuleEntry)

namespace Registration

def entry : Registration → ModuleEntry
  | .default entry => entry
  | .registered entry => entry

def default? : Registration → Option ModuleEntry
  | .default entry => some entry
  | .registered _ => none

def registered? : Registration → Option ModuleEntry
  | .default _ => none
  | .registered entry => some entry

end Registration

def Catalogue.call (catalogue : Catalogue) : Registration → Catalogue
  | .default entry => catalogue.addDefault entry
  | .registered entry => catalogue.register entry

def Catalogue.ofCalls (calls : List Registration) : Catalogue := calls.foldl call empty

/-- The types in the order of the search. -/
def searchOrder (calls : List Registration) : List KnownType :=
  (calls.filterMap Registration.default?).flatMap ModuleEntry.knownTypes ++
    (calls.filterMap Registration.registered?).flatMap ModuleEntry.knownTypes

/-- A base with double colons asks for a path, any other for a last name. -/
def KnownType.answers (base : String) (type : KnownType) : Bool :=
  if hasColons base.toList then type.path == base else type.lastName == base

theorem TypeIndex.lookup_enter (index : TypeIndex) (key base : String) (type : KnownType) :
    (index.enter key type).lookup base =
      (index.lookup base).or (if key == base then some type else none) := by
  unfold enter
  split
  · next hsome =>
    by_cases hkey : key = base
    · obtain ⟨first, hfirst⟩ := Option.isSome_iff_exists.mp hsome
      rw [← hkey, hfirst, Option.some_or]
    · simp [hkey]
  · rw [List.lookup_append]
    by_cases hkey : key = base
    · simp [hkey]
    · have hbase : (base == key) = false := beq_eq_false_iff_ne.mpr (Ne.symm hkey)
      simp [hkey, List.lookup_cons, hbase]

namespace Tier

theorem find?_enter (tier : Tier) (type : KnownType) (base : String) :
    (tier.enter type).find? base =
      (tier.find? base).or (if type.answers base then some type else none) := by
  by_cases hcolons : hasColons base.toList = true
  · simp only [find?, enter, KnownType.answers, hcolons, if_true, TypeIndex.lookup_enter]
  · simp only [find?, enter, KnownType.answers, hcolons, if_neg, Bool.false_eq_true,
      not_false_eq_true, TypeIndex.lookup_enter]

theorem find?_foldl_enter (types : List KnownType) (tier : Tier) (base : String) :
    (types.foldl enter tier).find? base =
      (tier.find? base).or (types.find? (·.answers base)) := by
  induction types generalizing tier with
  | nil => simp
  | cons type types ih =>
    rw [List.foldl_cons, ih, find?_enter, Option.or_assoc, List.find?_cons]
    cases type.answers base <;> simp

theorem find?_add (tier : Tier) (entry : ModuleEntry) (base : String) :
    (tier.add entry).find? base =
      (tier.find? base).or (entry.knownTypes.find? (·.answers base)) :=
  find?_foldl_enter entry.knownTypes tier base

theorem find?_foldl_add (entries : List ModuleEntry) (tier : Tier) (base : String) :
    (entries.foldl add tier).find? base =
      (tier.find? base).or ((entries.flatMap ModuleEntry.knownTypes).find? (·.answers base)) := by
  induction entries generalizing tier with
  | nil => simp
  | cons entry entries ih =>
    rw [List.foldl_cons, ih, find?_add, Option.or_assoc, List.flatMap_cons, List.find?_append]

theorem modules_foldl_enter (types : List KnownType) (tier : Tier) :
    (types.foldl enter tier).modules = tier.modules := by
  induction types generalizing tier with
  | nil => rfl
  | cons type types ih => exact ih (tier.enter type)

theorem modules_foldl_add (entries : List ModuleEntry) (tier : Tier) :
    (entries.foldl add tier).modules = tier.modules ++ entries.map ModuleEntry.module := by
  induction entries generalizing tier with
  | nil => simp
  | cons entry entries ih =>
    have hadd : (tier.add entry).modules = tier.modules ++ [entry.module] :=
      congrArg (· ++ [entry.module]) (modules_foldl_enter entry.knownTypes tier)
    rw [List.foldl_cons, ih, hadd, List.map_cons, List.append_assoc, List.singleton_append]

theorem find?_empty (base : String) : ({} : Tier).find? base = none := ite_self _

end Tier

namespace Catalogue

theorem defaults_foldl_call (calls : List Registration) (catalogue : Catalogue) :
    (calls.foldl call catalogue).defaults =
      (calls.filterMap Registration.default?).foldl Tier.add catalogue.defaults := by
  induction calls generalizing catalogue with
  | nil => rfl
  | cons registration calls ih =>
    rw [List.foldl_cons, ih]
    cases registration <;> rfl

theorem registered_foldl_call (calls : List Registration) (catalogue : Catalogue) :
    (calls.foldl call catalogue).registered =
      (calls.filterMap Registration.registered?).foldl Tier.add catalogue.registered := by
  induction calls generalizing catalogue with
  | nil => rfl
  | cons registration calls ih =>
    rw [List.foldl_cons, ih]
    cases registration <;> rfl

theorem modules_defaults_foldl_call (calls : List Registration) (catalogue : Catalogue) :
    (calls.foldl call catalogue).defaults.modules = catalogue.defaults.modules ++
      (calls.filterMap Registration.default?).map ModuleEntry.module := by
  rw [defaults_foldl_call, Tier.modules_foldl_add]

theorem enter_eq_foldl_call (catalogue : Catalogue) (defaults modules : List ModuleEntry) :
    catalogue.enter defaults modules =
      (defaults.map Registration.default ++ modules.map Registration.registered).foldl call
        catalogue := by
  rw [enter, List.foldl_append, List.foldl_map, List.foldl_map]
  rfl

/-- The two indexes of the tiers answer as a search through all types would. -/
theorem find?_ofCalls (calls : List Registration) (base : String) :
    (ofCalls calls).find? base = (searchOrder calls).find? (·.answers base) := by
  rw [find?, ofCalls, defaults_foldl_call, registered_foldl_call, Tier.find?_foldl_add,
    Tier.find?_foldl_add, searchOrder, List.find?_append]
  simp [empty, Tier.find?_empty]

end Catalogue

theorem mem_searchOrder {calls : List Registration} {type : KnownType}
    (h : type ∈ searchOrder calls) : ∃ registration ∈ calls, type ∈ registration.entry.knownTypes := by
  rw [searchOrder, List.mem_append, List.mem_flatMap, List.mem_flatMap] at h
  rcases h with ⟨entry, hentry, htype⟩ | ⟨entry, hentry, htype⟩
  · obtain ⟨registration, hcall, hdefault⟩ := List.mem_filterMap.mp hentry
    cases registration with
    | default _ => exact ⟨_, hcall, Option.some.inj hdefault ▸ htype⟩
    | registered _ => cases hdefault
  · obtain ⟨registration, hcall, hregistered⟩ := List.mem_filterMap.mp hentry
    cases registration with
    | default _ => cases hregistered
    | registered _ => exact ⟨_, hcall, Option.some.inj hregistered ▸ htype⟩

end TemplateViews
