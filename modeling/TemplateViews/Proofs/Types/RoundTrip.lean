import TemplateViews.Proofs.Types.Registry
import TemplateViews.Proofs.Types.Resolution

/-! The text of a resolved type is a name of it. A type found by its last name is found
by its path as well, since whatever answers to the path answered to the name before. -/

namespace TemplateViews

theorem lastName_of_not_hasColons {type : KnownType} (hpath : IsNamePath [':', ':'] type.path.toList)
    (hcolons : hasColons type.path.toList = false) : type.lastName = type.path := by
  have hidentifier : ':' ∉ type.path.toList := by
    generalize type.path.toList = path at hpath hcolons
    cases hpath with
    | single hname => exact not_mem_identifier hname (by decide)
    | cons hname hrest =>
      rw [hasColons_append] at hcolons
      cases hcolons
  rw [KnownType.lastName, afterColons_of_not_mem hidentifier, String.ofList_toList]

namespace KnownType

variable {base : String} {type other : KnownType}

theorem answers_path (hpath : IsNamePath [':', ':'] type.path.toList) :
    type.answers type.path = true := by
  unfold answers
  split
  · exact beq_self_eq_true _
  · next hcolons =>
    exact beq_iff_eq.mpr (lastName_of_not_hasColons hpath (by simpa using hcolons))

theorem answers_of_answers_path (hpath : IsNamePath [':', ':'] type.path.toList)
    (hbase : type.answers base = true) (hother : other.answers type.path = true) :
    other.answers base = true := by
  unfold answers at hbase hother ⊢
  by_cases hcolons : hasColons type.path.toList = true
  · rw [if_pos hcolons, beq_iff_eq] at hother
    have hname : other.lastName = type.lastName := by rw [lastName, hother, lastName]
    rwa [hother, hname]
  · have hlast := lastName_of_not_hasColons hpath (by simpa using hcolons)
    rw [if_neg hcolons, beq_iff_eq] at hother
    split
    · next hqualified =>
      rw [if_pos hqualified, beq_iff_eq] at hbase
      rw [hbase] at hcolons
      exact absurd hqualified hcolons
    · next hplain =>
      rw [if_neg hplain, hlast] at hbase
      rwa [hother]

end KnownType

namespace Catalogue

/-- A search by the path of the type that was found finds it again. -/
theorem find?_path {calls : List Registration} {base : String} {type : KnownType}
    (hpath : IsNamePath [':', ':'] type.path.toList) (h : (ofCalls calls).find? base = some type) :
    (ofCalls calls).find? type.path = some type := by
  rw [find?_ofCalls] at h ⊢
  obtain ⟨hanswers, before, after, horder, hbefore⟩ := List.find?_eq_some_iff_append.mp h
  refine List.find?_eq_some_iff_append.mpr
    ⟨KnownType.answers_path hpath, before, after, horder, fun other hother => ?_⟩
  have hmissed := hbefore other hother
  simp only [Bool.not_eq_true', ← Bool.not_eq_true] at hmissed ⊢
  exact fun hagain => hmissed (KnownType.answers_of_answers_path hpath hanswers hagain)

end Catalogue

/-- The name that a tree is written as. -/
def TypeTree.name : TypeTree → TypeName
  | .node type args => .named type.path (args.map name)

section Print

variable {catalogue : Catalogue} {name : TypeName} {tree : TypeTree}

theorem Denotes.denotes_name (hfind : ∀ base type, catalogue.find? base = some type →
    catalogue.find? type.path = some type) (h : Denotes catalogue name tree) :
    Denotes catalogue tree.name tree := by
  induction h with
  | @node base type args hbase harity _ ih =>
    have hnode : Denotes catalogue _ _ := .node (hfind base type hbase)
      (by rw [List.length_map, harity])
      (List.forall_mem_map.mpr ih : ∀ arg ∈ args.map fun arg => (arg.2.name, arg.2), _)
    simpa [TypeTree.name, Function.comp_def] using hnode

theorem deepest_congr {α : Type} {args : List α} {f g : α → TypeName}
    (h : ∀ arg ∈ args, (f arg).depth = (g arg).depth) :
    TypeName.deepest (args.map f) = TypeName.deepest (args.map g) := by
  induction args with
  | nil => rfl
  | cons arg args ih =>
    obtain ⟨harg, hargs⟩ := List.forall_mem_cons.mp h
    simp only [List.map_cons, TypeName.deepest, harg, ih hargs]

theorem Denotes.depth_name (h : Denotes catalogue name tree) : tree.name.depth = name.depth := by
  induction h with
  | @node base type args _ _ _ ih =>
    rw [TypeTree.name, List.map_map]
    by_cases hargs : args = []
    · subst hargs
      simp [TypeName.depth]
    · have hdeepest : TypeName.deepest (args.map (TypeTree.name ∘ Prod.snd)) =
          TypeName.deepest (args.map Prod.fst) := deepest_congr ih
      rw [TypeName.depth_named (by simpa using hargs), TypeName.depth_named (by simpa using hargs),
        hdeepest]

theorem append_argumentChars (first : List Char) (args : List TypeTree) :
    first ++ TypeTree.argumentChars args =
      joinWith [','] (first :: args.map fun arg => ' ' :: arg.chars) ++ ['>'] := by
  induction args generalizing first with
  | nil => rw [TypeTree.argumentChars, List.map_nil, joinWith]
  | cons arg args ih =>
    rw [TypeTree.argumentChars, List.map_cons, joinWith_cons (by simp), List.append_assoc, ← ih]
    simp

theorem TypeTree.chars_node (type : KnownType) (arg : TypeTree) (args : List TypeTree) :
    (node type (arg :: args)).chars = type.path.toList ++
      '<' :: (joinWith [','] (arg.chars :: args.map fun arg => ' ' :: arg.chars) ++ ['>']) := by
  rw [chars, ← append_argumentChars, List.append_assoc, List.cons_append]

theorem Denotes.spells_chars (hpaths : ∀ base type, catalogue.find? base = some type →
    IsNamePath [':', ':'] type.path.toList) (h : Denotes catalogue name tree) :
    Spells tree.chars tree.name := by
  induction h with
  | @node base type args hbase _ _ ih =>
    have hpath := (hpaths base type hbase).spellsPath
    cases args with
    | nil =>
      have hplain := Spells.plain hpath
      rw [String.ofList_toList] at hplain
      simpa [TypeTree.name, TypeTree.chars] using hplain
    | cons arg args =>
      obtain ⟨harg, hargs⟩ := List.forall_mem_cons.mp ih
      have htexts : ∀ text ∈ (arg.2.chars, arg.2.name) ::
          args.map (fun arg => (' ' :: arg.2.chars, arg.2.name)), Spells text.1 text.2 := by
        refine List.forall_mem_cons.mpr ⟨harg, List.forall_mem_map.mpr fun later hlater => ?_⟩
        have hpad : Spells ([' '] ++ later.2.chars ++ []) later.2.name :=
          (hargs later hlater).pad (List.forall_mem_singleton.mpr rfl) (List.forall_mem_nil _)
        rwa [List.append_nil] at hpad
      have hgeneric := Spells.generic hpath (List.cons_ne_nil _ _) htexts (List.forall_mem_nil _)
      rw [String.ofList_toList] at hgeneric
      simpa [TypeTree.name, TypeTree.chars_node, Function.comp_def] using hgeneric

end Print

namespace Catalogue

variable {calls : List Registration}

/-- The modules name their types by paths, double colons in front aside. -/
def NamesPaths (calls : List Registration) : Prop :=
  ∀ registration ∈ calls, ∀ type ∈ registration.entry.types,
    IsNamePath [':', ':'] (dropColons type.path.toList)

theorem NamesPaths.find? (h : NamesPaths calls) :
    ∀ base type, (ofCalls calls).find? base = some type →
      IsNamePath [':', ':'] type.path.toList := by
  intro base type htype
  rw [find?_ofCalls] at htype
  obtain ⟨registration, hcall, hknown⟩ := mem_searchOrder (List.mem_of_find?_eq_some htype)
  obtain ⟨entry, hentry, rfl⟩ := List.mem_map.mp hknown
  rw [String.toList_ofList]
  exact h registration hcall entry hentry

theorem resolve_text (hpaths : NamesPaths calls) {text : String} {tree : TypeTree}
    (h : (ofCalls calls).resolve text = .ok tree) :
    (ofCalls calls).resolve tree.text = .ok tree := by
  obtain ⟨name, -, hdepth, hdenotes⟩ := resolve_eq_ok_iff_spells.mp h
  have hfind : ∀ base type, (ofCalls calls).find? base = some type →
      (ofCalls calls).find? type.path = some type := fun base type htype =>
    find?_path (hpaths.find? base type htype) htype
  have hspells := hdenotes.spells_chars hpaths.find?
  rw [← String.toList_ofList (l := tree.chars)] at hspells
  rw [← hdenotes.depth_name] at hdepth
  exact resolve_eq_ok_iff_spells.mpr ⟨_, hspells, hdepth, hdenotes.denotes_name hfind⟩

/-- The text of a type that a name resolved to resolves to that type again, so names whose
types have the same text resolved to the same type. -/
theorem resolve_text_stable (hpaths : NamesPaths calls) {text : String} {tree : TypeTree}
    (h : (ofCalls calls).resolve text = .ok tree) :
    (ofCalls calls).resolve tree.text = .ok tree ∧
    ∀ other found, (ofCalls calls).resolve other = .ok found → found.text = tree.text →
      found = tree := by
  have htext := resolve_text hpaths h
  refine ⟨htext, fun other found hother hsame => ?_⟩
  have hfound := resolve_text hpaths hother
  rw [hsame, htext] at hfound
  exact (Except.ok.inj hfound).symm

/-- A module of each tier, one of which names its type with double colons in front. -/
def shopCalls : List Registration := [
  .registered ⟨"shop", ⟨"/libs/libshop.rlib"⟩, [⟨"::shop::Form", 0⟩]⟩,
  .default ⟨"base", ⟨"/libs/libbase.rlib"⟩, [⟨"base::List", 1⟩]⟩]

theorem resolve_text_stable_shop : NamesPaths shopCalls ∧
    ∃ tree, (ofCalls shopCalls).resolve " List< ::Form >" = .ok tree ∧
      tree.text = "base::List<shop::Form>" ∧ (ofCalls shopCalls).resolve tree.text = .ok tree ∧
      ∀ other found, (ofCalls shopCalls).resolve other = .ok found → found.text = tree.text →
        found = tree := by
  have hchecked : ∀ registration ∈ shopCalls, ∀ type ∈ registration.entry.types,
      isTypePath (dropColons type.path.toList) = true := by decide +kernel
  have hpaths : NamesPaths shopCalls := fun registration hcall type htype =>
    isTypePath_iff.mp (hchecked registration hcall type htype)
  have htext : ((ofCalls shopCalls).resolve " List< ::Form >").map TypeTree.text =
      .ok "base::List<shop::Form>" := by decide +kernel
  obtain ⟨tree, htree, hprinted⟩ := map_eq_ok_iff.mp htext
  exact ⟨hpaths, tree, htree, hprinted, resolve_text_stable hpaths htree⟩

end Catalogue

end TemplateViews
