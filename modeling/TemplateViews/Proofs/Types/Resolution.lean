import TemplateViews.Proofs.Outcome
import TemplateViews.Proofs.Types.Reading
import TemplateViews.Types.Resolve

/-! Resolving accepts exactly the names of the grammar that nest within the limit and
whose parts are known with the right number of arguments, and gives the tree of what
was found. -/

namespace TemplateViews

/-- The tree of known types that a name stands for. -/
inductive Denotes (catalogue : Catalogue) : TypeName → TypeTree → Prop
  | node {base : String} {type : KnownType} {args : List (TypeName × TypeTree)}
      (hfind : catalogue.find? base = some type) (harity : type.arity = args.length)
      (hargs : ∀ arg ∈ args, Denotes catalogue arg.1 arg.2) :
      Denotes catalogue (.named base (args.map Prod.fst)) (.node type (args.map Prod.snd))

theorem TypeName.induction {motive : TypeName → Prop}
    (malformed : ∀ text, motive (.malformed text))
    (named : ∀ base args, (∀ arg ∈ args, motive arg) → motive (.named base args)) :
    ∀ name, motive name
  | .malformed text => malformed text
  | .named base args => named base args fun arg _ => TypeName.induction malformed named arg

theorem Denotes.wellFormed {catalogue : Catalogue} {name : TypeName} {tree : TypeTree}
    (h : Denotes catalogue name tree) : name.WellFormed := by
  induction h with
  | node _ _ _ ih => exact .named (List.forall_mem_map.mpr ih)

namespace Catalogue

variable {catalogue : Catalogue}

theorem resolveNames_cons_iff {name : TypeName} {names : List TypeName} {trees : List TypeTree} :
    catalogue.resolveNames (name :: names) = .ok trees ↔ ∃ tree rest,
      catalogue.resolveName name = .ok tree ∧ catalogue.resolveNames names = .ok rest ∧
      tree :: rest = trees := by
  rw [resolveNames]
  cases catalogue.resolveName name with
  | error e => simp
  | ok tree => simp [map_eq_ok_iff]

theorem resolveNames_eq_ok_iff {names : List TypeName} {trees : List TypeTree} :
    catalogue.resolveNames names = .ok trees ↔ ∃ args : List (TypeName × TypeTree),
      args.map Prod.fst = names ∧ args.map Prod.snd = trees ∧
      ∀ arg ∈ args, catalogue.resolveName arg.1 = .ok arg.2 := by
  induction names generalizing trees with
  | nil =>
    constructor
    · intro h
      exact ⟨[], rfl, Except.ok.inj h, by simp⟩
    · rintro ⟨args, hnames, rfl, -⟩
      rw [List.map_eq_nil_iff.mp hnames]
      rfl
  | cons name names ih =>
    rw [resolveNames_cons_iff]
    constructor
    · rintro ⟨tree, rest, hname, hnames, rfl⟩
      obtain ⟨args, rfl, rfl, hargs⟩ := ih.mp hnames
      exact ⟨(name, tree) :: args, rfl, rfl, List.forall_mem_cons.mpr ⟨hname, hargs⟩⟩
    · rintro ⟨args, hnames, rfl, hargs⟩
      obtain ⟨arg, args, rfl, rfl, hrest⟩ := List.map_eq_cons_iff.mp hnames
      obtain ⟨hname, hargs⟩ := List.forall_mem_cons.mp hargs
      exact ⟨arg.2, args.map Prod.snd, hname, ih.mpr ⟨args, hrest, rfl, hargs⟩, rfl⟩

theorem resolveNames_eq_error {names : List TypeName} {e : TypeError}
    (h : catalogue.resolveNames names = .error e) :
    ∃ name ∈ names, catalogue.resolveName name = .error e := by
  induction names with
  | nil => cases h
  | cons name names ih =>
    rw [resolveNames] at h
    split at h
    · next problem hname =>
      obtain rfl := Except.error.inj h
      exact ⟨name, by simp, hname⟩
    · next tree hname =>
      obtain ⟨later, hlater, he⟩ := ih (map_eq_error_iff.mp h)
      exact ⟨later, by simp [hlater], he⟩

theorem resolveName_named_iff {base : String} {args : List TypeName} {tree : TypeTree} :
    catalogue.resolveName (.named base args) = .ok tree ↔ ∃ type trees,
      catalogue.find? base = some type ∧ type.arity = args.length ∧
      catalogue.resolveNames args = .ok trees ∧ .node type trees = tree := by
  rw [resolveName]
  split
  · next hfind => simp [hfind]
  · next type hfind =>
    split
    · next harity => simp [hfind, harity, map_eq_ok_iff]
    · next harity => simp [hfind, harity]

theorem resolveName_eq_ok_iff {name : TypeName} {tree : TypeTree} :
    catalogue.resolveName name = .ok tree ↔ Denotes catalogue name tree := by
  constructor
  · intro h
    induction name using TypeName.induction generalizing tree with
    | malformed text =>
      rw [resolveName] at h
      cases h
    | named base args ih =>
      obtain ⟨type, trees, hfind, harity, hargs, rfl⟩ := resolveName_named_iff.mp h
      obtain ⟨pairs, rfl, rfl, hpairs⟩ := resolveNames_eq_ok_iff.mp hargs
      rw [List.length_map] at harity
      exact .node hfind harity fun arg harg =>
        ih arg.1 (List.mem_map_of_mem harg) (hpairs arg harg)
  · intro h
    induction h with
    | node hfind harity _ ih =>
      rw [← List.length_map Prod.fst] at harity
      exact resolveName_named_iff.mpr
        ⟨_, _, hfind, harity, resolveNames_eq_ok_iff.mpr ⟨_, rfl, rfl, ih⟩, rfl⟩

theorem resolveName_ne_malformed {name : TypeName} (h : name.WellFormed) (text : String) :
    catalogue.resolveName name ≠ .error (.malformed text) := by
  induction h with
  | @named base args _ ih =>
    intro he
    rw [resolveName] at he
    split at he
    · cases he
    · split at he
      · obtain ⟨arg, harg, hproblem⟩ := resolveNames_eq_error (map_eq_error_iff.mp he)
        exact ih arg harg hproblem
      · cases he

/-- Emptiness and depth are matters of the whole text. -/
theorem resolveName_error {name : TypeName} {e : TypeError}
    (h : catalogue.resolveName name = .error e) : e ≠ .empty ∧ e ≠ .tooDeep := by
  induction name using TypeName.induction with
  | malformed text =>
    rw [resolveName] at h
    obtain rfl := Except.error.inj h
    exact ⟨nofun, nofun⟩
  | named base args ih =>
    rw [resolveName] at h
    split at h
    · obtain rfl := Except.error.inj h
      exact ⟨nofun, nofun⟩
    · split at h
      · obtain ⟨arg, harg, hproblem⟩ := resolveNames_eq_error (map_eq_error_iff.mp h)
        exact ih arg harg hproblem
      · obtain rfl := Except.error.inj h
        exact ⟨nofun, nofun⟩

theorem resolve_eq_empty_iff {text : String} :
    catalogue.resolve text = .error .empty ↔ trim text.toList = [] := by
  unfold resolve
  dsimp only
  by_cases hempty : trim text.toList = []
  · simp [hempty]
  · rw [if_neg hempty]
    split
    · simp [hempty]
    · have hname : catalogue.resolveName (.read (trim text.toList)) ≠ .error .empty :=
        fun h => (resolveName_error h).1 rfl
      simp [hempty, hname]

theorem resolve_eq_ok_iff {text : String} {tree : TypeTree} :
    catalogue.resolve text = .ok tree ↔
      trim text.toList ≠ [] ∧ nesting (trim text.toList) ≤ maxNesting ∧
      catalogue.resolveName (.read (trim text.toList)) = .ok tree := by
  unfold resolve
  dsimp only
  split
  · next hempty => simp [hempty]
  · next hempty =>
    split
    · next hdeep => simp [Nat.not_le.mpr hdeep]
    · next hdeep => simp [hempty, Nat.not_lt.mp hdeep]

theorem resolve_eq_ok_iff_spells {text : String} {tree : TypeTree} :
    catalogue.resolve text = .ok tree ↔ ∃ name,
      Spells text.toList name ∧ name.depth ≤ maxNesting ∧ Denotes catalogue name tree := by
  rw [resolve_eq_ok_iff]
  constructor
  · rintro ⟨-, hnesting, hresolve⟩
    have hdenotes := resolveName_eq_ok_iff.mp hresolve
    have hspells := spells_iff.mpr ⟨rfl, hdenotes.wellFormed⟩
    rw [hspells.trimmed.nests.nesting] at hnesting
    exact ⟨_, hspells, hnesting, hdenotes⟩
  · rintro ⟨name, hspells, hdepth, hdenotes⟩
    obtain ⟨rfl, -⟩ := spells_iff.mp hspells
    rw [← hspells.trimmed.nests.nesting] at hdepth
    exact ⟨hspells.trim_ne_nil, hdepth, resolveName_eq_ok_iff.mpr hdenotes⟩

theorem resolve_ne_malformed {text : String} {name : TypeName} (h : Spells text.toList name)
    (rest : String) : catalogue.resolve text ≠ .error (.malformed rest) := by
  unfold resolve
  dsimp only
  split
  · simp
  · split
    · simp
    · rw [h.read]
      exact resolveName_ne_malformed h.wellFormed rest

/-- Resolving accepts the grammar of type names and nothing else, and no text of the
grammar is called malformed. -/
theorem resolve_accepts_grammar (catalogue : Catalogue) (text : String) :
    (∀ tree, catalogue.resolve text = .ok tree ↔ ∃ name,
      Spells text.toList name ∧ name.depth ≤ maxNesting ∧ Denotes catalogue name tree) ∧
    ∀ name, Spells text.toList name →
      ∀ rest, catalogue.resolve text ≠ .error (.malformed rest) :=
  ⟨fun _ => resolve_eq_ok_iff_spells, fun _ hspells rest => resolve_ne_malformed hspells rest⟩

example : ((empty.register ⟨"base", ⟨"/libs/libbase.rlib"⟩, [⟨"base::List", 1⟩, ⟨"u8", 0⟩]⟩).resolve
    " ::List < u8 > ").map TypeTree.text = .ok "base::List<u8>" := by decide +kernel

end Catalogue

end TemplateViews
