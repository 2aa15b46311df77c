import TemplateViews.Proofs.Types.Registry
import TemplateViews.Proofs.Types.Resolution

/-! Texts of resolved types. A tree is written in the paths of known types and the marks around
arguments, and whatever modules are entered, no type without a path is found. -/

namespace TemplateViews

theorem TypeTree.forall_mem_argumentChars {P : Char → Prop} {trees : List TypeTree}
    (hmarks : ∀ c ∈ ['<', '>', ',', ' '], P c) (htrees : ∀ tree ∈ trees, ∀ c ∈ tree.chars, P c) :
    ∀ c ∈ argumentChars trees, P c := by
  simp only [List.forall_mem_cons] at hmarks
  obtain ⟨-, hclose, hcomma, hspace, -⟩ := hmarks
  induction trees with
  | nil => exact List.forall_mem_singleton.mpr hclose
  | cons tree trees ih =>
    obtain ⟨htree, hrest⟩ := List.forall_mem_cons.mp htrees
    rw [argumentChars, List.forall_mem_append, List.forall_mem_cons, List.forall_mem_cons]
    exact ⟨⟨hcomma, hspace, htree⟩, ih hrest⟩

/-- What holds of the marks and of all paths holds of the whole text. -/
theorem Denotes.forall_mem_chars {P : Char → Prop} {catalogue : Catalogue} {name : TypeName}
    {tree : TypeTree} (hmarks : ∀ c ∈ ['<', '>', ',', ' '], P c)
    (hpaths : ∀ base type, catalogue.find? base = some type → ∀ c ∈ type.path.toList, P c)
    (h : Denotes catalogue name tree) : ∀ c ∈ tree.chars, P c := by
  induction h with
  | @node base type args hfind _ _ ih =>
    have hpath := hpaths base type hfind
    cases args with
    | nil => exact hpath
    | cons arg args =>
      obtain ⟨harg, hargs⟩ := List.forall_mem_cons.mp ih
      have hrest := TypeTree.forall_mem_argumentChars hmarks (List.forall_mem_map.mpr hargs)
      rw [List.map_cons, TypeTree.chars, List.forall_mem_append, List.forall_mem_append,
        List.forall_mem_cons]
      exact ⟨⟨hpath, hmarks _ (by simp), harg⟩, hrest⟩

theorem TypeTree.chars_ne_nil {type : KnownType} {trees : List TypeTree} (h : type.path ≠ "") :
    (node type trees).chars ≠ [] := by
  have hpath : type.path.toList ≠ [] := by simpa using h
  cases trees with
  | nil => exact hpath
  | cons tree trees => simp [TypeTree.chars]

theorem Denotes.exists_find? {catalogue : Catalogue} {name : TypeName} {tree : TypeTree}
    (h : Denotes catalogue name tree) : ∃ base args type trees,
      name = .named base args ∧ tree = .node type trees ∧ catalogue.find? base = some type := by
  cases h with
  | node hfind _ _ => exact ⟨_, _, _, _, rfl, rfl, hfind⟩

theorem Spells.base_ne_empty {cs : List Char} {base : String} {args : List TypeName}
    (h : Spells cs (.named base args)) : base ≠ "" := by
  have hne {cs path : List Char} (hpath : SpellsPath cs path) : String.ofList path ≠ "" := by
    obtain ⟨count, -, hpath, -⟩ := hpath
    obtain ⟨c, rest, rfl, -⟩ := hpath.head
    simp
  cases h with
  | plain hpath => exact hne hpath
  | generic hpath _ _ _ => exact hne hpath

theorem KnownType.path_ne_empty_of_answers {type : KnownType} {base : String} (hbase : base ≠ "")
    (h : type.answers base = true) : type.path ≠ "" := by
  intro hpath
  unfold answers at h
  split at h
  · rw [beq_iff_eq, hpath] at h
    exact hbase h.symm
  · have hlast : type.lastName = "" := by
      rw [lastName, hpath]
      rfl
    rw [beq_iff_eq, hlast] at h
    exact hbase h.symm

theorem mem_of_mem_dropColons {cs : List Char} {c : Char} (h : c ∈ dropColons cs) : c ∈ cs := by
  obtain ⟨count, hcount⟩ := exists_colons_dropColons cs
  rw [hcount]
  exact List.mem_append_right _ h

namespace Catalogue

variable {calls : List Registration} {text : String} {tree : TypeTree}

/-- No name resolves to a type without a text. -/
theorem text_ne_empty_of_resolve (h : (ofCalls calls).resolve text = .ok tree) :
    tree.text ≠ "" := by
  obtain ⟨name, hspells, -, hdenotes⟩ := resolve_eq_ok_iff_spells.mp h
  obtain ⟨base, args, type, trees, rfl, rfl, hfind⟩ := hdenotes.exists_find?
  rw [find?_ofCalls] at hfind
  have hanswers : type.answers base = true := List.find?_some hfind
  have hpath := KnownType.path_ne_empty_of_answers hspells.base_ne_empty hanswers
  simpa [TypeTree.text] using TypeTree.chars_ne_nil hpath

theorem newline_not_mem_text_of_resolve
    (hpaths : ∀ registration ∈ calls, ∀ type ∈ registration.entry.types, '\n' ∉ type.path.toList)
    (h : (ofCalls calls).resolve text = .ok tree) : '\n' ∉ tree.text.toList := by
  obtain ⟨name, -, -, hdenotes⟩ := resolve_eq_ok_iff_spells.mp h
  have hfound : ∀ base type, (ofCalls calls).find? base = some type →
      ∀ c ∈ type.path.toList, c ≠ '\n' := by
    intro base type hfind c hc hnewline
    rw [find?_ofCalls] at hfind
    obtain ⟨registration, hcall, hknown⟩ := mem_searchOrder (List.mem_of_find?_eq_some hfind)
    obtain ⟨entry, hentry, rfl⟩ := List.mem_map.mp hknown
    rw [String.toList_ofList, hnewline] at hc
    exact hpaths registration hcall entry hentry (mem_of_mem_dropColons hc)
  have hmarks : ∀ c ∈ ['<', '>', ',', ' '], c ≠ '\n' := by simp
  rw [TypeTree.text, String.toList_ofList]
  exact fun hmem => hdenotes.forall_mem_chars hmarks hfound _ hmem rfl

end Catalogue

end TemplateViews
