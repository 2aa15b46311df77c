import TemplateViews.Proofs.Types.Growth

/-! Trees whose known types are exchanged. Resolving looks at the paths and arities of known types
alone, so where a catalogue finds other types of the same ones it comes to the same faults and to
the same trees of the other types. -/

namespace TemplateViews

namespace TypeTree

mutual

def map (f : KnownType → KnownType) : TypeTree → TypeTree
  | node type args => node (f type) (mapArguments f args)

def mapArguments (f : KnownType → KnownType) : List TypeTree → List TypeTree
  | [] => []
  | arg :: args => arg.map f :: mapArguments f args

end

end TypeTree

namespace Catalogue

variable {before after : Catalogue} {f : KnownType → KnownType}

theorem resolveNames_map {names : List TypeName}
    (h : ∀ name ∈ names, after.resolveName name = (before.resolveName name).map (TypeTree.map f)) :
    after.resolveNames names = (before.resolveNames names).map (TypeTree.mapArguments f) := by
  induction names with
  | nil => rfl
  | cons name names ih =>
    obtain ⟨hname, hnames⟩ := List.forall_mem_cons.mp h
    rw [resolveNames, resolveNames, hname, ih hnames]
    cases before.resolveName name with
    | error e => rfl
    | ok tree =>
      cases before.resolveNames names with
      | error e => rfl
      | ok trees => rfl

section Found

variable (hfind : ∀ base, after.find? base = (before.find? base).map f)
  (hpath : ∀ type, (f type).path = type.path) (harity : ∀ type, (f type).arity = type.arity)

include hfind hpath harity

theorem resolveName_map (name : TypeName) :
    after.resolveName name = (before.resolveName name).map (TypeTree.map f) := by
  induction name using TypeName.induction with
  | malformed text => rw [resolveName, resolveName]; rfl
  | named base args ih =>
    rw [resolveName, resolveName, hfind]
    cases before.find? base with
    | none => rfl
    | some type =>
      simp only [Option.map_some, hpath, harity]
      split
      · rw [resolveNames_map ih]
        cases before.resolveNames args with
        | error e => rfl
        | ok trees => rfl
      · rfl

theorem resolve_map (text : String) :
    after.resolve text = (before.resolve text).map (TypeTree.map f) := by
  unfold resolve
  dsimp only
  split
  · rfl
  · split
    · rfl
    · exact resolveName_map hfind hpath harity _

end Found

/-- A tree is made of types that the search finds. -/
theorem madeOf_of_resolve {catalogue : Catalogue} {types : List KnownType} {text : String}
    {tree : TypeTree} (hfind : ∀ base type, catalogue.find? base = some type → type ∈ types)
    (h : catalogue.resolve text = .ok tree) : tree.MadeOf types := by
  obtain ⟨name, -, -, hdenotes⟩ := resolve_eq_ok_iff_spells.mp h
  clear h
  induction hdenotes with
  | node hbase _ _ ih => exact .node (hfind _ _ hbase) (List.forall_mem_map.mpr ih)

end Catalogue

end TemplateViews
