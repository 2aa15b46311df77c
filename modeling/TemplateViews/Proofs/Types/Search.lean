import TemplateViews.Proofs.Text.Colons
import TemplateViews.Proofs.Types.Registry
import TemplateViews.Proofs.Types.Resolution

/-! The search that a catalogue stands for. The indexes answer as if all types were looked
through in order, the default modules first, and resolving uses what that search finds. -/

namespace TemplateViews

/-- The types of all modules, each with its module, in the order of the search. -/
def offers (calls : List Registration) : List (ModuleEntry × TypeEntry) :=
  (calls.filterMap Registration.default? ++ calls.filterMap Registration.registered?).flatMap
    fun entry => entry.types.map fun type => (entry, type)

/-- A type is asked for by its path, if the base has double colons, and else by its last
name; double colons in front do not belong to the path. -/
def TypeEntry.Answers (type : TypeEntry) (base : String) : Prop :=
  ∃ path, StripsColons type.path.toList path ∧
    ([':', ':'] <:+: base.toList → path = base.toList) ∧
    (¬ [':', ':'] <:+: base.toList → IsLastName path base.toList)

def FirstAnswer (calls : List Registration) (base : String) (entry : ModuleEntry)
    (type : TypeEntry) : Prop :=
  ∃ before after, offers calls = before ++ (entry, type) :: after ∧ type.Answers base ∧
    ∀ other ∈ before, ¬ other.2.Answers base

def ModuleEntry.known (entry : ModuleEntry) (type : TypeEntry) : KnownType where
  path := String.ofList (dropColons type.path.toList)
  arity := type.arity
  module := ⟨entry.name, entry.location⟩

variable {calls : List Registration} {base : String}

theorem searchOrder_eq_map_offers :
    searchOrder calls = (offers calls).map fun offer => offer.1.known offer.2 := by
  rw [searchOrder, ← List.flatMap_append, offers, List.map_flatMap]
  simp only [List.map_map]
  rfl

theorem ModuleEntry.answers_known_iff {entry : ModuleEntry} {type : TypeEntry} :
    (entry.known type).answers base = true ↔ type.Answers base := by
  have hpath : type.Answers base ↔
      ([':', ':'] <:+: base.toList → dropColons type.path.toList = base.toList) ∧
      (¬ [':', ':'] <:+: base.toList → IsLastName (dropColons type.path.toList) base.toList) := by
    constructor
    · rintro ⟨path, hpath, hbase⟩
      rwa [dropColons_eq_iff.mpr hpath]
    · intro hbase
      exact ⟨_, dropColons_eq_iff.mp rfl, hbase⟩
  rw [hpath, KnownType.answers]
  simp only [← hasColons_iff, ← afterColons_eq_iff]
  by_cases hcolons : hasColons base.toList = true
  · simp [hcolons, ModuleEntry.known, ← String.toList_inj]
  · simp [hcolons, ModuleEntry.known, KnownType.lastName, ← String.toList_inj]

namespace Catalogue

theorem find?_ofCalls_eq_map :
    (ofCalls calls).find? base = ((offers calls).find? fun offer =>
      (offer.1.known offer.2).answers base).map fun offer => offer.1.known offer.2 := by
  rw [find?_ofCalls, searchOrder_eq_map_offers, List.find?_map]
  rfl

theorem find?_of_firstAnswer {entry : ModuleEntry} {type : TypeEntry}
    (h : FirstAnswer calls base entry type) :
    (ofCalls calls).find? base = some (entry.known type) := by
  obtain ⟨before, after, hoffers, hanswers, hbefore⟩ := h
  have hfirst : (offers calls).find? (fun offer => (offer.1.known offer.2).answers base) =
      some (entry, type) := by
    refine List.find?_eq_some_iff_append.mpr
      ⟨ModuleEntry.answers_known_iff.mpr hanswers, before, after, hoffers, fun other hother => ?_⟩
    rw [Bool.not_eq_true', ← Bool.not_eq_true, ModuleEntry.answers_known_iff]
    exact hbefore other hother
  rw [find?_ofCalls_eq_map, hfirst, Option.map_some]

theorem find?_eq_none_iff : (ofCalls calls).find? base = none ↔
    ∀ offer ∈ offers calls, ¬ offer.2.Answers base := by
  rw [find?_ofCalls_eq_map, Option.map_eq_none_iff, List.find?_eq_none]
  simp only [ModuleEntry.answers_known_iff]

theorem resolve_of_read {catalogue : Catalogue} {text : String} {args : List TypeName}
    (hread : TypeName.read (trim text.toList) = .named base args)
    (hnesting : nesting (trim text.toList) ≤ maxNesting) :
    catalogue.resolve text = catalogue.resolveName (.named base args) := by
  have hne : trim text.toList ≠ [] := by
    intro hempty
    have hsplit : splitName [] = some ([], []) := rfl
    rw [hempty, TypeName.read_of_splitName hsplit] at hread
    cases hread
  unfold resolve
  dsimp only
  rw [if_neg hne, if_neg (Nat.not_lt.mpr hnesting), hread]

/-- A base is called unknown, at whatever depth of a name, only if it is. -/
theorem find?_of_resolveName_notFound {catalogue : Catalogue} {name : TypeName}
    (h : catalogue.resolveName name = .error (.notFound base)) : catalogue.find? base = none := by
  induction name using TypeName.induction with
  | malformed text => cases h
  | named other args ih =>
    rw [resolveName] at h
    split at h
    · next hfind =>
      obtain rfl := TypeError.notFound.inj (Except.error.inj h)
      exact hfind
    · split at h
      · obtain ⟨arg, harg, hproblem⟩ := resolveNames_eq_error (map_eq_error_iff.mp h)
        exact ih arg harg hproblem
      · cases h

/-- Resolving uses the type that an ordered search through all modules finds. -/
theorem resolve_uses_first_answer (calls : List Registration) (base : String) :
    (∀ args entry type, FirstAnswer calls base entry type →
      (ofCalls calls).resolveName (.named base args) =
        if type.arity = args.length then
          ((ofCalls calls).resolveNames args).map (.node (entry.known type))
        else .error (.arity (entry.known type).path type.arity args.length)) ∧
    (∀ args, (ofCalls calls).resolveName (.named base args) = .error (.notFound base) ↔
      ∀ offer ∈ offers calls, ¬ offer.2.Answers base) ∧
    ∀ text args, TypeName.read (trim text.toList) = .named base args →
      nesting (trim text.toList) ≤ maxNesting →
      (ofCalls calls).resolve text = (ofCalls calls).resolveName (.named base args) := by
  refine ⟨fun args entry type hfirst => ?_, fun args => ?_, fun text args hread hnesting => ?_⟩
  · rw [resolveName, find?_of_firstAnswer hfirst]
    rfl
  · rw [← find?_eq_none_iff]
    refine ⟨find?_of_resolveName_notFound, fun hnone => ?_⟩
    rw [resolveName, hnone]
  · exact resolve_of_read hread hnesting

end Catalogue

end TemplateViews
