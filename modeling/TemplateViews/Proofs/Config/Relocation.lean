import TemplateViews.Proofs.Config.Anchoring
import TemplateViews.Proofs.Types.Transport

/-! Names of types in an anchored manifest. They resolve as before, but for the locations of the
modules that the manifest lists; and once these are absolute, anchoring changes them no more. -/

namespace TemplateViews

namespace Path

variable {base p : Path}

theorem isAbsolute_join (h : base.isAbsolute = true) : (base.join p).isAbsolute = true := by
  unfold join
  split
  · next hp =>
    rw [not_isEmpty_of_isAbsolute h, Bool.or_false] at hp
    exact hp
  · have hne : base.text.toList ≠ [] := fun hnil => by simp [isAbsolute, hnil] at h
    split <;> simpa [isAbsolute, List.head?_append_of_ne_nil _ hne] using h

end Path

/-- The type with its module where anchoring has it; the built-in module has no place to anchor. -/
def KnownType.anchoredAt (base : Path) (type : KnownType) : KnownType :=
  if type ∈ standardModule.knownTypes then type
  else { type with module := ⟨type.module.name, Manifest.anchor base type.module.location⟩ }

def TypeTree.anchoredAt (base : Path) : TypeTree → TypeTree := map (KnownType.anchoredAt base)

section Types

variable {base : Path} {type : KnownType} {entry : ModuleEntry}

theorem KnownType.path_anchoredAt (base : Path) (type : KnownType) :
    (type.anchoredAt base).path = type.path := by
  unfold anchoredAt
  split <;> rfl

theorem KnownType.arity_anchoredAt (base : Path) (type : KnownType) :
    (type.anchoredAt base).arity = type.arity := by
  unfold anchoredAt
  split <;> rfl

theorem KnownType.anchoredAt_of_standard (h : type ∈ standardModule.knownTypes) :
    type.anchoredAt base = type := if_pos h

theorem KnownType.anchoredAt_of_listed (htype : type ∈ entry.knownTypes)
    (h : type ∉ standardModule.knownTypes) : type.module = entry.module ∧
      type.anchoredAt base = { type with module := (entry.anchoredAt base).module } := by
  obtain ⟨item, -, rfl⟩ := List.mem_map.mp htype
  exact ⟨rfl, if_neg h⟩

end Types

namespace Manifest

variable {m : Manifest} {base other p : Path}

theorem filterMap_default? (defaults modules : List ModuleEntry) :
    (defaults.map Registration.default ++ modules.map Registration.registered).filterMap
      Registration.default? = defaults := by
  simp [List.filterMap_map, Function.comp_def, Registration.default?]

theorem filterMap_registered? (defaults modules : List ModuleEntry) :
    (defaults.map Registration.default ++ modules.map Registration.registered).filterMap
      Registration.registered? = modules := by
  simp [List.filterMap_map, Function.comp_def, Registration.registered?]

/-- A manifest's catalogue searches the built-in module before those that are listed. -/
theorem find?_catalogue (m : Manifest) (name : String) : m.catalogue.find? name =
    (standardModule.knownTypes.find? (·.answers name)).or
      ((m.entries.flatMap ModuleEntry.knownTypes).find? (·.answers name)) := by
  have hstandard : Catalogue.standard.defaults.find? name =
      standardModule.knownTypes.find? (·.answers name) := by
    refine (Tier.find?_add {} standardModule name).trans ?_
    rw [Tier.find?_empty, Option.none_or]
  have hempty : Catalogue.standard.registered.find? name = none := Tier.find?_empty name
  rw [catalogue, Catalogue.enter_eq_foldl_call, Catalogue.find?, Catalogue.defaults_foldl_call,
    Catalogue.registered_foldl_call, filterMap_default?, filterMap_registered?,
    Tier.find?_foldl_add, Tier.find?_foldl_add, hstandard, hempty, Option.none_or, entries,
    List.flatMap_append, List.find?_append, Option.orElse_eq_orElse, ← Option.or_eq_orElse,
    Option.or_assoc]

theorem knownTypes_entries_anchoredAt (m : Manifest) (base : Path) :
    (m.anchoredAt base).entries.flatMap ModuleEntry.knownTypes =
      (m.entries.flatMap ModuleEntry.knownTypes).map fun type =>
        { type with module := ⟨type.module.name, anchor base type.module.location⟩ } := by
  rw [entries_anchoredAt, List.flatMap_map, List.map_flatMap]
  refine congrArg List.flatten (List.map_congr_left fun entry _ => ?_)
  rw [ModuleEntry.knownTypes, ModuleEntry.knownTypes, List.map_map]
  rfl

/-- Anchoring moves what a search finds, and finds it under the same names. -/
theorem find?_catalogue_anchoredAt (m : Manifest) (base : Path) (name : String) :
    (m.anchoredAt base).catalogue.find? name =
      (m.catalogue.find? name).map (KnownType.anchoredAt base) := by
  rw [find?_catalogue, find?_catalogue, knownTypes_entries_anchoredAt, List.find?_map]
  cases hstandard : standardModule.knownTypes.find? (·.answers name) with
  | some type =>
    have hmem := List.mem_of_find?_eq_some hstandard
    rw [Option.some_or, Option.some_or, Option.map_some, KnownType.anchoredAt_of_standard hmem]
  | none =>
    rw [Option.none_or, Option.none_or]
    refine Option.map_congr fun type htype => ?_
    -- a type of the built-in module would have answered there
    have hnot : type ∉ standardModule.knownTypes := fun hmem =>
      List.find?_eq_none.mp hstandard type hmem (List.find?_some htype)
    exact (if_neg hnot).symm

theorem mem_of_find?_catalogue {name : String} {type : KnownType}
    (h : m.catalogue.find? name = some type) :
    type ∈ standardModule.knownTypes ++ m.entries.flatMap ModuleEntry.knownTypes := by
  rw [find?_catalogue, ← List.find?_append] at h
  exact List.mem_of_find?_eq_some h

theorem modules_catalogue (m : Manifest) :
    m.catalogue.modules = standardModule.module :: m.entries.map ModuleEntry.module := by
  have hstandard : Catalogue.standard.defaults.modules = [standardModule.module] := rfl
  have hempty : Catalogue.standard.registered.modules = [] := rfl
  rw [catalogue, Catalogue.enter_eq_foldl_call, Catalogue.modules, Catalogue.defaults_foldl_call,
    Catalogue.registered_foldl_call, filterMap_default?, filterMap_registered?,
    Tier.modules_foldl_add, Tier.modules_foldl_add, hstandard, hempty, entries, List.map_append]
  rfl

/-- Names resolve in the anchored manifest as before, to the same types in the modules where they
are then. -/
structure MovesModules (m : Manifest) (base : Path) : Prop where
  outcome : ∀ text, (m.anchoredAt base).catalogue.resolve text =
    (m.catalogue.resolve text).map (TypeTree.anchoredAt base)
  origin : ∀ text tree, m.catalogue.resolve text = .ok tree →
    tree.MadeOf (standardModule.knownTypes ++ m.entries.flatMap ModuleEntry.knownTypes)
  builtIn : ∀ type ∈ standardModule.knownTypes, type.anchoredAt base = type
  listed : ∀ entry ∈ m.entries, ∀ type ∈ entry.knownTypes, type ∉ standardModule.knownTypes →
    type.module = entry.module ∧
      type.anchoredAt base = { type with module := ⟨entry.name, anchor base entry.location⟩ }
  modules : (m.anchoredAt base).catalogue.modules =
    standardModule.module :: m.entries.map fun entry => ⟨entry.name, anchor base entry.location⟩

theorem movesModules (m : Manifest) (base : Path) : m.MovesModules base := by
  constructor
  · exact Catalogue.resolve_map (find?_catalogue_anchoredAt m base) (KnownType.path_anchoredAt base)
      (KnownType.arity_anchoredAt base)
  · exact fun text tree => Catalogue.madeOf_of_resolve fun name type => mem_of_find?_catalogue
  · exact fun type => KnownType.anchoredAt_of_standard
  · exact fun entry _ type => KnownType.anchoredAt_of_listed
  · rw [modules_catalogue, entries_anchoredAt, List.map_map]
    rfl

/-- What a manifest says, with all places left blank. -/
def unplaced (m : Manifest) : Manifest where
  overrides := { m.overrides with
    scratchDir := m.overrides.scratchDir.map fun _ => ⟨""⟩
    searchDirs := m.overrides.searchDirs.map fun _ => ⟨""⟩ }
  defaults := m.defaults.map fun entry => { entry with location := ⟨""⟩ }
  modules := m.modules.map fun entry => { entry with location := ⟨""⟩ }

theorem unplaced_anchoredAt (m : Manifest) (base : Path) :
    (m.anchoredAt base).unplaced = m.unplaced := by
  simp only [unplaced, anchoredAt, List.map_map, Option.map_map]
  rfl

structure IsAbsolute (m : Manifest) : Prop where
  entries : ∀ entry ∈ m.entries, entry.location.isAbsolute = true
  searchDirs : ∀ dir ∈ m.overrides.searchDirs, dir.isAbsolute = true
  scratchDir : ∀ dir ∈ m.overrides.scratchDir, dir.isAbsolute = true

theorem isAbsolute_anchor (h : base.isAbsolute = true) : (anchor base p).isAbsolute = true := by
  unfold anchor
  split
  · next hp => exact hp
  · exact Path.isAbsolute_join h

theorem isAbsolute_anchoredAt (m : Manifest) (h : base.isAbsolute = true) :
    (m.anchoredAt base).IsAbsolute := by
  refine ⟨?_, List.forall_mem_map.mpr fun _ _ => isAbsolute_anchor h, fun dir hdir => ?_⟩
  · rw [entries_anchoredAt]
    exact List.forall_mem_map.mpr fun _ _ => isAbsolute_anchor h
  · obtain ⟨before, -, rfl⟩ := Option.map_eq_some_iff.mp hdir
    exact isAbsolute_anchor h

/-- There is nothing to anchor in a manifest of absolute places. -/
theorem IsAbsolute.anchoredAt_eq (h : m.IsAbsolute) (base : Path) : m.anchoredAt base = m := by
  have hentries {entries : List ModuleEntry}
      (hentries : ∀ entry ∈ entries, entry.location.isAbsolute = true) :
      entries.map (ModuleEntry.anchoredAt base) = entries := by
    refine (List.map_congr_left fun entry hentry => ?_).trans (List.map_id entries)
    rw [ModuleEntry.anchoredAt, anchor, if_pos (hentries entry hentry)]
    rfl
  have hdirs : m.overrides.searchDirs.map (anchor base) = m.overrides.searchDirs :=
    (List.map_congr_left fun dir hdir => if_pos (h.searchDirs dir hdir)).trans (List.map_id _)
  have hscratch : m.overrides.scratchDir.map (anchor base) = m.overrides.scratchDir := by
    cases hdir : m.overrides.scratchDir with
    | none => rfl
    | some dir => exact congrArg some (if_pos (h.scratchDir dir hdir))
  obtain ⟨hdefaults, hmodules⟩ := List.forall_mem_append.mp h.entries
  have hplaced : m.anchoredAt base =
      ⟨{ m.overrides with
          scratchDir := m.overrides.scratchDir.map (anchor base)
          searchDirs := m.overrides.searchDirs.map (anchor base) },
        m.defaults.map (ModuleEntry.anchoredAt base),
        m.modules.map (ModuleEntry.anchoredAt base)⟩ := rfl
  rw [hplaced, hdirs, hscratch, hentries hdefaults, hentries hmodules]

/-- Anchoring commutes with resolving names, and an absolute base settles all places for good. -/
theorem anchoredAt_commutes (m : Manifest) (base : Path) :
    m.MovesModules base ∧ (m.anchoredAt base).unplaced = m.unplaced ∧
    (base.isAbsolute = true → (m.anchoredAt base).IsAbsolute ∧
      ∀ other, (m.anchoredAt base).anchoredAt other = m.anchoredAt base) := by
  refine ⟨movesModules m base, unplaced_anchoredAt m base, fun h => ?_⟩
  have habsolute := isAbsolute_anchoredAt m h
  exact ⟨habsolute, habsolute.anchoredAt_eq⟩

def shopManifest : Manifest where
  overrides := { scratchDir := some ⟨"tmp"⟩, searchDirs := [⟨"/deps"⟩, ⟨"deps"⟩] }
  modules := [⟨"shop", ⟨"lib/libshop.rlib"⟩, [⟨"shop::Page", 1⟩]⟩]

/-- The library of a shop moves below an absolute base, and moves no more. -/
theorem anchoredAt_commutes_shop :
    Path.isAbsolute ⟨"/srv"⟩ = true ∧ (shopManifest.anchoredAt ⟨"/srv"⟩).IsAbsolute ∧
    (shopManifest.anchoredAt ⟨"/srv"⟩).anchoredAt ⟨"other"⟩ = shopManifest.anchoredAt ⟨"/srv"⟩ ∧
    ∃ tree, shopManifest.catalogue.resolve "Page<u8>" = .ok tree ∧
      (shopManifest.anchoredAt ⟨"/srv"⟩).catalogue.resolve "Page<u8>" =
        .ok (tree.anchoredAt ⟨"/srv"⟩) ∧
      (tree.anchoredAt ⟨"/srv"⟩).modules =
        [⟨"shop", ⟨"/srv/lib/libshop.rlib"⟩⟩, ⟨"std", ⟨"std"⟩⟩] := by
  have habsolute : Path.isAbsolute ⟨"/srv"⟩ = true := by decide
  obtain ⟨hmoves, -, hsettled⟩ := anchoredAt_commutes shopManifest ⟨"/srv"⟩
  have hresolve := hmoves.outcome "Page<u8>"
  have hmodules : ((shopManifest.anchoredAt ⟨"/srv"⟩).catalogue.resolve "Page<u8>").map
      TypeTree.modules = .ok [⟨"shop", ⟨"/srv/lib/libshop.rlib"⟩⟩, ⟨"std", ⟨"std"⟩⟩] := by
    decide +kernel
  obtain ⟨moved, hmoved, hplaces⟩ := map_eq_ok_iff.mp hmodules
  obtain ⟨tree, htree, rfl⟩ := map_eq_ok_iff.mp (hresolve.symm.trans hmoved)
  exact ⟨habsolute, (hsettled habsolute).1, (hsettled habsolute).2 ⟨"other"⟩, tree, htree, hmoved,
    hplaces⟩

end Manifest

end TemplateViews
