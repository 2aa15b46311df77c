import Mathlib.Data.List.DropRight
import TemplateViews.Proofs.Links.Selection
import TemplateViews.Proofs.Links.Spelling

/-! Where linked modules lie. The parent of a path has its components without the last one, and
the directories of links are these parents, each once and in the order in which modules first lie
in them. -/

namespace TemplateViews

namespace Path

variable {p dir : Path} {pieces : List (List Char)}

/-- The path that is written with these pieces. -/
def ofPieces (pieces : List (List Char)) : Path :=
  ⟨if pieces = [[]] then "/" else String.ofList (joinWith ['/'] pieces)⟩

theorem filterMap_trimPieces (pieces : List (List Char)) :
    (trimPieces pieces).filterMap Component.inner = pieces.filterMap Component.inner := by
  have hsplit : trimPieces pieces ++
      pieces.rtakeWhile (fun piece => (Component.inner piece).isNone) = pieces :=
    List.rdropWhile_append_rtakeWhile
  have hnone : (pieces.rtakeWhile fun piece => (Component.inner piece).isNone).filterMap
      Component.inner = [] := by
    refine List.filterMap_eq_nil_iff.mpr fun piece hpiece => ?_
    exact Option.isNone_iff_eq_none.mp
      (List.mem_rtakeWhile_imp (p := fun piece => (Component.inner piece).isNone) hpiece)
  conv_rhs => rw [← hsplit, List.filterMap_append, hnone, List.append_nil]

theorem trimPieces_subset : trimPieces pieces ⊆ pieces :=
  (List.rdropWhile_prefix (fun piece => (Component.inner piece).isNone) pieces).subset

theorem exists_last_of_trimPieces (h : trimPieces pieces ≠ []) :
    ∃ last, pieces.filterMap Component.inner =
      (trimPieces pieces).dropLast.filterMap Component.inner ++ [last] := by
  have hlast : ¬ (Component.inner ((trimPieces pieces).getLast h)).isNone = true :=
    List.rdropWhile_last_not _ _ h
  obtain ⟨last, hinner⟩ := Option.ne_none_iff_exists'.mp fun hnone =>
    hlast (Option.isNone_iff_eq_none.mpr hnone)
  refine ⟨last, ?_⟩
  rw [← filterMap_trimPieces pieces]
  conv_lhs => rw [← List.dropLast_append_getLast h]
  rw [List.filterMap_append, List.filterMap_cons_some hinner, List.filterMap_nil]

theorem slash_not_mem_of_mem_pieces {piece : List Char} (h : piece ∈ p.pieces) : '/' ∉ piece :=
  not_mem_of_mem_splitAt h

theorem parent?_of_trimmed {first : List Char} {rest : List (List Char)}
    (hp : p.pieces = first :: rest) (h : trimPieces rest = []) :
    p.parent? = if first = [] then none else some ⟨""⟩ := by
  rw [parent?, hp]
  dsimp only
  rw [h]

theorem parent?_of_not_trimmed {first : List Char} {rest : List (List Char)}
    (hp : p.pieces = first :: rest) (h : trimPieces rest ≠ []) :
    p.parent? = some (ofPieces (first :: trimPieces (trimPieces rest).dropLast)) := by
  rw [parent?, hp]
  dsimp only
  split
  · next hnil => exact absurd hnil h
  · rfl

theorem components_ofPieces {first : List Char} {rest : List (List Char)}
    (h : ∀ piece ∈ first :: rest, '/' ∉ piece) :
    (ofPieces (first :: rest)).components =
      (Component.first first true).toList ++ rest.filterMap Component.inner := by
  unfold ofPieces
  split
  · next hroot =>
    obtain ⟨rfl, rfl⟩ := List.cons.inj hroot
    decide
  · next hroot =>
    have hpieces : pieces ⟨String.ofList (joinWith ['/'] (first :: rest))⟩ = first :: rest := by
      rw [pieces, String.toList_ofList]
      exact splitAt_joinWith (List.cons_ne_nil _ _) h
    rw [components_eq hpieces]
    cases rest with
    | nil =>
      -- a piece alone is no root, so that no slash has to follow it
      have hfirst : first ≠ [] := fun hnil => hroot (by rw [hnil])
      rw [Component.first, Component.first, if_neg hfirst, if_neg hfirst]
    | cons next rest => rfl

theorem exists_component_of_first {first : List Char} (h : first ≠ []) (slash : Bool) :
    ∃ component, Component.first first slash = some component := by
  unfold Component.first Component.inner
  split
  · next hnil => exact absurd hnil h
  · repeat' split
    all_goals simp_all

/-- The parent of a path has all of its components but the last. -/
theorem components_of_parent? (h : p.parent? = some dir) :
    ∃ last, p.components = dir.components ++ [last] := by
  obtain ⟨first, rest, hp⟩ := exists_pieces p
  rw [components_eq hp]
  by_cases htrim : trimPieces rest = []
  · rw [parent?_of_trimmed hp htrim] at h
    have hfirst : first ≠ [] := fun hnil => by simp [hnil] at h
    rw [if_neg hfirst] at h
    obtain rfl := Option.some.inj h
    obtain ⟨last, hlast⟩ := exists_component_of_first hfirst (!rest.isEmpty)
    have hrest := filterMap_trimPieces rest
    rw [htrim] at hrest
    exact ⟨last, by rw [hlast, ← hrest]; rfl⟩
  · rw [parent?_of_not_trimmed hp htrim] at h
    obtain rfl := Option.some.inj h
    obtain ⟨last, hlast⟩ := exists_last_of_trimPieces htrim
    have hsub : trimPieces (trimPieces rest).dropLast ⊆ rest := fun piece hpiece =>
      trimPieces_subset (List.dropLast_subset _ (trimPieces_subset hpiece))
    have hslash : ∀ piece ∈ first :: trimPieces (trimPieces rest).dropLast, '/' ∉ piece :=
      fun piece hpiece =>
        slash_not_mem_of_mem_pieces (hp ▸ List.cons_subset_cons first hsub hpiece)
    have hne : rest ≠ [] := fun hnil => htrim (by rw [hnil]; rfl)
    refine ⟨last, ?_⟩
    rw [components_ofPieces hslash, filterMap_trimPieces, List.append_assoc, ← hlast,
      List.isEmpty_eq_false_iff.mpr hne]
    rfl

theorem components_of_parent?_eq_none (h : p.parent? = none) :
    p.components = [] ∨ p.components = [.root] := by
  obtain ⟨first, rest, hp⟩ := exists_pieces p
  by_cases htrim : trimPieces rest = []
  · rw [parent?_of_trimmed hp htrim] at h
    have hfirst : first = [] := by
      by_contra hne
      rw [if_neg hne] at h
      cases h
    have hrest := filterMap_trimPieces rest
    rw [htrim] at hrest
    rw [components_eq hp, hfirst, ← hrest]
    cases rest with
    | nil => exact .inl rfl
    | cons next rest => exact .inr rfl
  · rw [parent?_of_not_trimmed hp htrim] at h
    cases h

theorem components_eq_nil_iff : p.components = [] ↔ p.isEmpty = true := by
  obtain ⟨first, rest, hp⟩ := exists_pieces p
  have htext : p.text.toList = joinWith ['/'] (first :: rest) := hp ▸ (joinWith_splitAt '/' _).symm
  rw [isEmpty, htext, components_eq hp, List.append_eq_nil_iff, Option.toList_eq_nil_iff]
  by_cases hfirst : first = []
  · cases rest with
    | nil => simp [hfirst, Component.first, joinWith]
    | cons next rest => simp [hfirst, Component.first, joinWith]
  · obtain ⟨component, hcomponent⟩ := exists_component_of_first hfirst (!rest.isEmpty)
    rw [hcomponent]
    cases rest <;> simp [hfirst, joinWith]

end Path

/-- A module lies in a directory if its place is one step behind that of the directory. -/
def Module.LiesIn (module : Module) (place : List Path.Component) : Prop :=
  module.place ≠ [] ∧ module.place.dropLast = place

instance (module : Module) (place : List Path.Component) : Decidable (module.LiesIn place) :=
  inferInstanceAs (Decidable (_ ∧ _))

namespace Links

def firstIn? (place : List Path.Component) (modules : List Module) : Option Module :=
  modules.find? (·.LiesIn place)

def firstUse (modules : List Module) (place : List Path.Component) : Nat :=
  modules.findIdx (·.LiesIn place)

/-- What the directories of modules are. Each is written as in the location of the first module
that lies there. -/
structure DirectoriesOf (modules : List Module) (dirs : List Path) : Prop where
  different : dirs.Pairwise fun dir other => dir.components ≠ other.components
  nonempty : ∀ dir ∈ dirs, dir.isEmpty = false
  covers : ∀ place, (∃ dir ∈ dirs, dir.components = place) ↔
    place ≠ [] ∧ ∃ module ∈ modules, module.LiesIn place
  ordered : dirs.Pairwise fun dir other =>
    firstUse modules dir.components < firstUse modules other.components
  written : ∀ dir ∈ dirs, ∃ module, firstIn? dir.components modules = some module ∧
    module.location.parent? = some dir

variable {modules more : List Module} {module : Module} {place : List Path.Component} {dir : Path}
  {dirs : List Path}

theorem liesIn_of_parent? (h : module.location.parent? = some dir) :
    module.LiesIn dir.components := by
  obtain ⟨last, hplace⟩ := Path.components_of_parent? h
  rw [Module.LiesIn, Module.place, hplace]
  exact ⟨by simp, List.dropLast_concat⟩

theorem liesIn_iff (hplace : place ≠ []) :
    module.LiesIn place ↔ ∃ dir, directory? module = some dir ∧ dir.components = place := by
  simp only [directory?, Option.filter_eq_some_iff, Bool.not_eq_true']
  constructor
  · rintro ⟨hne, rfl⟩
    cases hparent : module.location.parent? with
    | none =>
      obtain hnil | hroot := Path.components_of_parent?_eq_none hparent
      · exact absurd hnil hne
      · rw [Module.place, hroot] at hplace
        exact absurd rfl hplace
    | some dir =>
      have hdir := (liesIn_of_parent? hparent).2
      refine ⟨dir, ⟨rfl, ?_⟩, hdir.symm⟩
      rw [hdir, Ne, Path.components_eq_nil_iff] at hplace
      exact Bool.eq_false_iff.mpr hplace
  · rintro ⟨dir, ⟨hparent, -⟩, rfl⟩
    exact liesIn_of_parent? hparent

theorem firstIn?_append (h : ∃ module ∈ modules, module.LiesIn place) :
    firstIn? place (modules ++ more) = firstIn? place modules := by
  obtain ⟨module, hmodule, hlies⟩ := h
  have hsome : (firstIn? place modules).isSome := by
    rw [firstIn?, List.find?_isSome]
    exact ⟨module, hmodule, decide_eq_true hlies⟩
  rw [firstIn?, List.find?_append]
  exact Option.or_of_isSome hsome

theorem firstIn?_append_self (h : ¬ ∃ other ∈ modules, other.LiesIn place)
    (hlies : module.LiesIn place) : firstIn? place (modules ++ [module]) = some module := by
  refine List.find?_eq_some_iff_append.mpr ⟨decide_eq_true hlies, modules, [], rfl, ?_⟩
  simpa using h

theorem firstUse_lt (h : ∃ module ∈ modules, module.LiesIn place) :
    firstUse modules place < modules.length :=
  List.findIdx_lt_length_of_exists (by simpa using h)

theorem firstUse_append (h : ∃ module ∈ modules, module.LiesIn place) :
    firstUse (modules ++ more) place = firstUse modules place := by
  rw [firstUse, List.findIdx_append]
  exact if_pos (firstUse_lt h)

theorem le_firstUse_append (h : ¬ ∃ module ∈ modules, module.LiesIn place) :
    modules.length ≤ firstUse (modules ++ more) place := by
  have hlength : firstUse modules place = modules.length := by
    rw [firstUse, List.findIdx_eq_length]
    simpa using h
  rw [firstUse, List.findIdx_append, if_neg (by rw [← hlength]; exact lt_irrefl _)]
  exact Nat.le_add_left _ _

namespace DirectoriesOf

theorem used (h : DirectoriesOf modules dirs) (hdir : dir ∈ dirs) :
    ∃ module ∈ modules, module.LiesIn dir.components :=
  ((h.covers dir.components).mp ⟨dir, hdir, rfl⟩).2

theorem ordered_append (h : DirectoriesOf modules dirs) : dirs.Pairwise fun dir other =>
    firstUse (modules ++ more) dir.components < firstUse (modules ++ more) other.components :=
  h.ordered.imp_of_mem fun hdir hother hlt => by
    rwa [firstUse_append (h.used hdir), firstUse_append (h.used hother)]

theorem written_append (h : DirectoriesOf modules dirs) (hdir : dir ∈ dirs) :
    ∃ module, firstIn? dir.components (modules ++ more) = some module ∧
      module.location.parent? = some dir := by
  rw [firstIn?_append (h.used hdir)]
  exact h.written dir hdir

theorem nil : DirectoriesOf [] [] where
  different := .nil
  nonempty := by simp
  covers := by simp
  ordered := .nil
  written := by simp

theorem append_used (h : DirectoriesOf modules dirs)
    (hused : ∀ place ≠ [], module.LiesIn place → ∃ dir ∈ dirs, dir.components = place) :
    DirectoriesOf (modules ++ [module]) dirs where
  different := h.different
  nonempty := h.nonempty
  covers place := by
    rw [h.covers]
    refine and_congr_right fun hplace => ⟨fun ⟨other, hother, hlies⟩ => ?_, ?_⟩
    · exact ⟨other, List.mem_append_left _ hother, hlies⟩
    · rintro ⟨other, hother, hlies⟩
      obtain hother | hother := List.mem_append.mp hother
      · exact ⟨other, hother, hlies⟩
      · obtain rfl := List.mem_singleton.mp hother
        exact ((h.covers place).mp (hused place hplace hlies)).2
  ordered := h.ordered_append
  written _ := h.written_append

/-- The directory of a module comes last if no other module uses it. -/
theorem append_new (h : DirectoriesOf modules dirs) (hmodule : directory? module = some dir)
    (hnew : ∀ other ∈ dirs, other.components ≠ dir.components) :
    DirectoriesOf (modules ++ [module]) (dirs ++ [dir]) := by
  obtain ⟨hparent, hnonempty⟩ := Option.filter_eq_some_iff.mp hmodule
  have hempty : dir.isEmpty = false := by simpa using hnonempty
  have hplace : dir.components ≠ [] := by simp [Path.components_eq_nil_iff, hempty]
  have hlies := liesIn_of_parent? hparent
  have hunused : ¬ ∃ module ∈ modules, module.LiesIn dir.components := fun hused => by
    obtain ⟨other, hother, hsame⟩ := (h.covers dir.components).mpr ⟨hplace, hused⟩
    exact hnew other hother hsame
  refine ⟨?_, ?_, fun place => ?_, ?_, ?_⟩
  · exact List.pairwise_append.mpr ⟨h.different, List.pairwise_singleton _ _, by simpa using hnew⟩
  · simpa [or_imp, forall_and, hempty] using h.nonempty
  · have hlast : (∃ other ∈ [dir], other.components = place) ↔
        place ≠ [] ∧ ∃ other ∈ [module], other.LiesIn place := by
      simp only [List.mem_singleton, exists_eq_left]
      constructor
      · rintro rfl
        exact ⟨hplace, hlies⟩
      · rintro ⟨-, -, rfl⟩
        exact hlies.2.symm
    simp only [List.mem_append, or_and_right, exists_or, h.covers, hlast, and_or_left]
  · refine List.pairwise_append.mpr
      ⟨h.ordered_append, List.pairwise_singleton _ _, fun other hother last hlast => ?_⟩
    obtain rfl := List.mem_singleton.mp hlast
    rw [firstUse_append (h.used hother)]
    exact (firstUse_lt (h.used hother)).trans_le (le_firstUse_append hunused)
  · intro other hother
    obtain hother | hother := List.mem_append.mp hother
    · exact h.written_append hother
    · obtain rfl := List.mem_singleton.mp hother
      exact ⟨module, firstIn?_append_self hunused hlies, hparent⟩

theorem addPath (h : DirectoriesOf modules dirs) :
    DirectoriesOf (modules ++ [module]) ((directory? module).toList.foldl Links.addPath dirs) := by
  cases hmodule : directory? module with
  | none =>
    refine h.append_used fun place hplace hlies => ?_
    obtain ⟨dir, hdir, -⟩ := (liesIn_iff hplace).mp hlies
    rw [hmodule] at hdir
    cases hdir
  | some dir =>
    rw [Option.toList_some, List.foldl_cons, List.foldl_nil, Links.addPath]
    -- a directory that is there already may be written in another way
    split
    · next hany =>
      refine h.append_used fun place hplace hlies => ?_
      obtain ⟨used, hused, rfl⟩ := (liesIn_iff hplace).mp hlies
      obtain rfl := Option.some.inj (hmodule.symm.trans hused)
      simpa using hany
    · next hany => exact h.append_new hmodule (by simpa using hany)

end DirectoriesOf

theorem directoriesOf_directories (links : Links) :
    DirectoriesOf links.modules links.directories := by
  unfold directories
  induction links.modules using List.reverseRecOn with
  | nil => exact .nil
  | append_singleton modules module ih =>
    have hlast : [module].filterMap directory? = (directory? module).toList := by
      cases hmodule : directory? module <;> simp [hmodule]
    rw [List.filterMap_append, List.foldl_append, hlast]
    exact ih.addPath

end Links

end TemplateViews
