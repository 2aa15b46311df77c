import TemplateViews.Proofs.Types.Registry
import TemplateViews.Proofs.Types.Resolution

/-! Catalogues that grow. A module that is registered answers only to bases that nothing answered
to before, so it can turn an unknown type into a known one and changes no other outcome; a default
module comes behind the default modules that are there. -/

namespace TemplateViews

/-- A tree in which all known types are among the given ones. -/
inductive TypeTree.MadeOf (types : List KnownType) : TypeTree → Prop
  | node {type : KnownType} {args : List TypeTree} (htype : type ∈ types)
      (hargs : ∀ arg ∈ args, MadeOf types arg) : MadeOf types (.node type args)

/-- The types of the default modules. -/
def defaultTypes (calls : List Registration) : List KnownType :=
  (calls.filterMap Registration.default?).flatMap ModuleEntry.knownTypes

namespace Catalogue

/-- What is found in a catalogue is found in another one too. -/
def Extends (before after : Catalogue) : Prop :=
  ∀ base type, before.find? base = some type → after.find? base = some type

section Outcomes

variable {before after : Catalogue}

/-- The arguments behind the first that fails are not looked at. -/
theorem resolveNames_congr {args : List TypeName}
    (hargs : ∀ arg ∈ args, (∀ base, before.resolveName arg ≠ .error (.notFound base)) →
      after.resolveName arg = before.resolveName arg)
    (hfound : ∀ base, before.resolveNames args ≠ .error (.notFound base)) :
    after.resolveNames args = before.resolveNames args := by
  induction args with
  | nil => rfl
  | cons arg args ih =>
    obtain ⟨harg, hrest⟩ := List.forall_mem_cons.mp hargs
    simp only [resolveNames] at hfound ⊢
    cases hbefore : before.resolveName arg with
    | error e =>
      rw [hbefore] at hfound harg
      rw [harg fun base he => hfound base (congrArg Except.error (Except.error.inj he))]
    | ok tree =>
      rw [hbefore] at hfound harg
      rw [harg (by simp)]
      dsimp only at hfound ⊢
      rw [ih hrest fun base he => hfound base (map_eq_error_iff.mpr he)]

/-- Only a name with an unknown base can come to another outcome. -/
theorem Extends.resolveName_eq (h : before.Extends after) {name : TypeName}
    (hfound : ∀ base, before.resolveName name ≠ .error (.notFound base)) :
    after.resolveName name = before.resolveName name := by
  induction name using TypeName.induction with
  | malformed text => rw [resolveName, resolveName]
  | named base args ih =>
    simp only [resolveName] at hfound ⊢
    cases hbase : before.find? base with
    | none =>
      rw [hbase] at hfound
      exact absurd rfl (hfound base)
    | some type =>
      rw [hbase] at hfound
      rw [h base type hbase]
      dsimp only at hfound ⊢
      split
      · next harity =>
        rw [if_pos harity] at hfound
        rw [resolveNames_congr ih fun base he => hfound base (map_eq_error_iff.mpr he)]
      · rfl

theorem Extends.resolve_eq (h : before.Extends after) {text : String}
    (hfound : ∀ base, before.resolve text ≠ .error (.notFound base)) :
    after.resolve text = before.resolve text := by
  unfold resolve at hfound ⊢
  dsimp only at hfound ⊢
  split
  · rfl
  · next hempty =>
    rw [if_neg hempty] at hfound
    split
    · rfl
    · next hdeep =>
      rw [if_neg hdeep] at hfound
      exact h.resolveName_eq hfound

/-- A name keeps its meaning as long as the types in it are found again. -/
theorem denotes_of_madeOf {types : List KnownType}
    (hfind : ∀ base, ∀ type ∈ types, before.find? base = some type →
      after.find? base = some type) {name : TypeName} {tree : TypeTree}
    (h : Denotes before name tree) (htree : tree.MadeOf types) : Denotes after name tree := by
  induction h with
  | @node base type args hbase harity _ ih =>
    cases htree with
    | node htype hargs =>
      exact .node (hfind base type htype hbase) harity fun arg harg =>
        ih arg harg (hargs _ (List.mem_map_of_mem harg))

end Outcomes

section Calls

variable {calls : List Registration}

theorem searchOrder_append_registered (entries : List ModuleEntry) :
    searchOrder (calls ++ entries.map .registered) =
      searchOrder calls ++ entries.flatMap ModuleEntry.knownTypes := by
  have hdefault : (entries.map Registration.registered).filterMap Registration.default? = [] := by
    simp [List.filterMap_map, Function.comp_def, Registration.default?]
  have hregistered : (entries.map Registration.registered).filterMap Registration.registered? =
      entries := by
    simp [List.filterMap_map, Function.comp_def, Registration.registered?]
  rw [searchOrder, List.filterMap_append, List.filterMap_append, hdefault, hregistered,
    List.append_nil, List.flatMap_append, ← List.append_assoc]
  rfl

theorem extends_registered (entries : List ModuleEntry) :
    (ofCalls calls).Extends (ofCalls (calls ++ entries.map .registered)) := by
  intro base type htype
  rw [find?_ofCalls] at htype ⊢
  rw [searchOrder_append_registered, List.find?_append, htype, Option.some_or]

/-- What is found among the default types is found whatever comes behind them. -/
theorem find?_of_mem_defaultTypes {base : String} {type : KnownType}
    (htype : type ∈ defaultTypes calls) (h : (ofCalls calls).find? base = some type)
    (further : List Registration) : (ofCalls (calls ++ further)).find? base = some type := by
  rw [find?_ofCalls] at h ⊢
  have hanswers := List.find?_some h
  obtain ⟨found, hfound⟩ := Option.isSome_iff_exists.mp
    (List.find?_isSome.mpr ⟨type, htype, hanswers⟩)
  have hsame (more : List KnownType) :
      (defaultTypes calls ++ more).find? (·.answers base) = some found := by
    rw [List.find?_append, hfound, Option.some_or]
  obtain rfl : found = type := Option.some.inj ((hsame _).symm.trans h)
  rw [searchOrder, List.filterMap_append, List.flatMap_append, List.append_assoc]
  exact hsame _

/-- Registering more modules changes the outcome of a name only if a type in it was not found, and
default modules that come later change no name that is made of default types. -/
theorem resolve_conservative (calls : List Registration) (text : String) :
    (∀ (entries : List ModuleEntry) tree, (ofCalls calls).resolve text = .ok tree →
      (ofCalls (calls ++ entries.map .registered)).resolve text = .ok tree) ∧
    (∀ (entries : List ModuleEntry) e, (ofCalls calls).resolve text = .error e →
      (∀ base, e ≠ .notFound base) →
      (ofCalls (calls ++ entries.map .registered)).resolve text = .error e) ∧
    ∀ further tree, (ofCalls calls).resolve text = .ok tree → tree.MadeOf (defaultTypes calls) →
      (ofCalls (calls ++ further)).resolve text = .ok tree := by
  refine ⟨fun entries tree h => ?_, fun entries e h hknown => ?_, fun further tree h htree => ?_⟩
  · rw [(extends_registered entries).resolve_eq (by simp [h]), h]
  · have hfound : ∀ base, (ofCalls calls).resolve text ≠ .error (.notFound base) := by
      intro base hbase
      exact hknown base (Except.error.inj (h.symm.trans hbase))
    rw [(extends_registered entries).resolve_eq hfound, h]
  · obtain ⟨name, hspells, hdepth, hdenotes⟩ := resolve_eq_ok_iff_spells.mp h
    have hfind : ∀ base, ∀ type ∈ defaultTypes calls, (ofCalls calls).find? base = some type →
        (ofCalls (calls ++ further)).find? base = some type :=
      fun base type htype hbase => find?_of_mem_defaultTypes htype hbase further
    exact resolve_eq_ok_iff_spells.mpr ⟨name, hspells, hdepth, denotes_of_madeOf hfind hdenotes htree⟩

def shelfCalls : List Registration := [
  .registered ⟨"shop", ⟨"/libs/libshop.rlib"⟩, [⟨"shop::Form", 0⟩]⟩,
  .default ⟨"base", ⟨"/libs/libbase.rlib"⟩, [⟨"base::List", 1⟩, ⟨"base::Unit", 0⟩]⟩]

/-- A module with types of the same last names. -/
def shadowModule : ModuleEntry :=
  ⟨"shadow", ⟨"/libs/libshadow.rlib"⟩, [⟨"shadow::Form", 1⟩, ⟨"shadow::List", 0⟩, ⟨"shadow::Unit", 2⟩]⟩

/-- Names keep their types, and their faults, when the module comes to either tier. -/
theorem resolve_conservative_shadowed :
    (∃ tree, (ofCalls shelfCalls).resolve "List<Form>" = .ok tree ∧
      tree.text = "base::List<shop::Form>" ∧
      (ofCalls (shelfCalls ++ [shadowModule].map .registered)).resolve "List<Form>" = .ok tree) ∧
    (ofCalls shelfCalls).resolve "List" = .error (.arity "base::List" 1 0) ∧
    (ofCalls (shelfCalls ++ [shadowModule].map .registered)).resolve "List" =
      .error (.arity "base::List" 1 0) ∧
    ∃ tree, (ofCalls shelfCalls).resolve "Unit" = .ok tree ∧
      tree.MadeOf (defaultTypes shelfCalls) ∧
      (ofCalls (shelfCalls ++ [.default shadowModule])).resolve "Unit" = .ok tree := by
  have hform : ((ofCalls shelfCalls).resolve "List<Form>").map TypeTree.text =
      .ok "base::List<shop::Form>" := by decide +kernel
  have hlist : ((ofCalls shelfCalls).resolve "List").map TypeTree.text =
      .error (.arity "base::List" 1 0) := by decide +kernel
  have hunit : ((ofCalls shelfCalls).resolve "Unit").map
      (fun tree => (tree.type.path, tree.args.isEmpty, (defaultTypes shelfCalls).contains tree.type)) =
      .ok ("base::Unit", true, true) := by decide +kernel
  obtain ⟨form, hresolved, htext⟩ := map_eq_ok_iff.mp hform
  obtain ⟨⟨type, args⟩, hfound, htype⟩ := map_eq_ok_iff.mp hunit
  obtain ⟨-, hargs, hdefault⟩ : type.path = "base::Unit" ∧ args = [] ∧
      type ∈ defaultTypes shelfCalls := by
    simpa [TypeTree.type, TypeTree.args] using htype
  have hmade : TypeTree.MadeOf (defaultTypes shelfCalls) (.node type args) :=
    .node hdefault (by simp [hargs])
  have harity := map_eq_error_iff.mp hlist
  exact ⟨⟨form, hresolved, htext, (resolve_conservative shelfCalls _).1 _ form hresolved⟩, harity,
    (resolve_conservative shelfCalls _).2.1 _ _ harity (by simp),
    _, hfound, hmade, (resolve_conservative shelfCalls _).2.2 _ _ hfound hmade⟩

end Calls

end Catalogue

end TemplateViews
