import Mathlib.Data.List.Forall2
import TemplateViews.Config.File
import TemplateViews.Proofs.Compiler.Prepared
import TemplateViews.Proofs.Links.Selection

/-! Manifests with their locations anchored at a directory. Anchoring turns an empty location into
the directory itself, so a module without a location, which no policy accepts, comes to be
accepted unless its name is excluded or the directory has an empty path. -/

namespace TemplateViews

namespace Path

variable {base p : Path}

theorem not_isEmpty_of_isAbsolute (h : p.isAbsolute = true) : p.isEmpty = false := by
  cases htext : p.text.toList with
  | nil => simp [isAbsolute, htext] at h
  | cons c cs => rw [isEmpty, htext, List.isEmpty_cons]

theorem isEmpty_join :
    (base.join p).isEmpty = true ↔ p.isEmpty = true ∧ base.isEmpty = true := by
  unfold join
  split
  · next h =>
    rcases Bool.or_eq_true_iff.mp h with habsolute | hbase
    · simp [not_isEmpty_of_isAbsolute habsolute]
    · rw [and_iff_left hbase]
  · next h =>
    have hbase : base.isEmpty ≠ true := fun hbase => h (Bool.or_eq_true_iff.mpr (.inr hbase))
    have htext : base.text.toList ≠ [] := fun he => hbase (List.isEmpty_iff.mpr he)
    split <;> simp [isEmpty, htext]

end Path

namespace Manifest

/-- An anchored path is empty only if there was nothing to anchor and nowhere to anchor it. -/
theorem isEmpty_anchor {base p : Path} :
    (anchor base p).isEmpty = true ↔ p.isEmpty = true ∧ base.isEmpty = true := by
  unfold anchor
  split
  · next habsolute => simp [Path.not_isEmpty_of_isAbsolute habsolute]
  · exact Path.isEmpty_join

/-- The modules of both tiers. -/
def entries (m : Manifest) : List ModuleEntry := m.defaults ++ m.modules

end Manifest

def ModuleEntry.anchoredAt (base : Path) (entry : ModuleEntry) : ModuleEntry :=
  { entry with location := Manifest.anchor base entry.location }

theorem Manifest.entries_anchoredAt (m : Manifest) (base : Path) :
    (m.anchoredAt base).entries = m.entries.map (ModuleEntry.anchoredAt base) :=
  List.map_append.symm

section Acceptance

variable {policy : LinkPolicy} {module : Module} {entry : ModuleEntry} {base : Path}

theorem LinkPolicy.accepts_iff : policy.accepts module = true ↔
    module.location.isEmpty = false ∧ module.name ∉ policy.excluded := by
  simp [accepts]

theorem ModuleEntry.accepts_anchoredAt_iff :
    policy.accepts (entry.anchoredAt base).module = true ↔
      ¬ (entry.location.isEmpty = true ∧ base.isEmpty = true) ∧ entry.name ∉ policy.excluded := by
  rw [LinkPolicy.accepts_iff, ← Manifest.isEmpty_anchor, Bool.not_eq_true]
  rfl

theorem ModuleEntry.accepts_anchoredAt_eq_iff :
    policy.accepts (entry.anchoredAt base).module = policy.accepts entry.module ↔
      (entry.location.isEmpty = true → base.isEmpty = true ∨ entry.name ∈ policy.excluded) := by
  rw [Bool.eq_iff_iff, accepts_anchoredAt_iff, LinkPolicy.accepts_iff, ← Bool.not_eq_true]
  by_cases hlocation : entry.location.isEmpty = true
  · simp [ModuleEntry.module, hlocation, imp_iff_not_or]
  · simp [ModuleEntry.module, hlocation]

end Acceptance

theorem Compiler.accepts_of_mem_links {compiler : Compiler} {template : String}
    {prepared : Prepared} (h : compiler.prepareText template = .ok prepared) {module : Module}
    (hmodule : module ∈ prepared.links.modules) :
    compiler.settings.policy.accepts module = true := by
  obtain ⟨resolved, source, -, -, rfl⟩ := Compiler.prepareText_eq_ok_iff.mp h
  exact (Links.mem_collect_iff.mp hmodule).2

namespace Manifest

/-- What becomes of modules without a location if a manifest is used as it is, and if it is
anchored at a directory. -/
structure RefusesUnplaced (m : Manifest) (base : Path) (policy : LinkPolicy) : Prop where
  accepts : List.Forall₂
      (fun before after => policy.accepts after.module = policy.accepts before.module)
      m.entries (m.anchoredAt base).entries ↔
    ∀ entry ∈ m.entries, entry.location.isEmpty = true →
      base.isEmpty = true ∨ entry.name ∈ policy.excluded
  plain : ∀ compiler : Compiler, compiler.settings.policy = policy →
    compiler.catalogue = m.catalogue →
    ∀ template prepared, compiler.prepareText template = .ok prepared →
    ∀ entry ∈ m.entries, entry.location.isEmpty = true → entry.module ∉ prepared.links.modules
  anchored : ∀ compiler : Compiler, compiler.settings.policy = policy →
    compiler.catalogue = (m.anchoredAt base).catalogue →
    ∀ template prepared, compiler.prepareText template = .ok prepared →
    ∀ entry ∈ m.entries, entry.location.isEmpty = true →
      base.isEmpty = true ∨ entry.name ∈ policy.excluded →
      (entry.anchoredAt base).module ∉ prepared.links.modules

theorem forall₂_accepts_iff {m : Manifest} {base : Path} {policy : LinkPolicy} :
    List.Forall₂ (fun before after => policy.accepts after.module = policy.accepts before.module)
        m.entries (m.anchoredAt base).entries ↔
      ∀ entry ∈ m.entries, entry.location.isEmpty = true →
        base.isEmpty = true ∨ entry.name ∈ policy.excluded := by
  rw [entries_anchoredAt, List.forall₂_map_right_iff, List.forall₂_same]
  simp only [ModuleEntry.accepts_anchoredAt_eq_iff]

theorem ofFile_of_readText {files : Files} {p : Path} {text : String} {m : Manifest}
    (htext : files.readText p = .ok text) (hjson : ofJson text = .ok m) :
    ofFile files p = .ok (m.anchoredAt (p.parent?.getD ⟨"."⟩)) := by
  simp only [ofFile, htext, hjson]

/-- A manifest in a file is the one that its text says, anchored at the directory of the file, and
anchoring keeps what a policy says of the modules exactly if it gives none of them a location. -/
theorem refusesUnplaced_anchoredAt (m : Manifest) (policy : LinkPolicy) :
    (∀ base, m.RefusesUnplaced base policy) ∧
    ∀ files p text, files.readText p = .ok text → ofJson text = .ok m →
      ofFile files p = .ok (m.anchoredAt (p.parent?.getD ⟨"."⟩)) := by
  refine ⟨fun base => ⟨forall₂_accepts_iff, ?_, ?_⟩, fun files p text => ofFile_of_readText⟩
  · rintro compiler rfl - template prepared hprepared entry - hlocation hmodule
    have haccepts := LinkPolicy.accepts_iff.mp (Compiler.accepts_of_mem_links hprepared hmodule)
    exact Bool.false_ne_true (haccepts.1.symm.trans hlocation)
  · rintro compiler rfl - template prepared hprepared entry - hlocation hrefused hmodule
    have haccepts := ModuleEntry.accepts_anchoredAt_iff.mp
      (Compiler.accepts_of_mem_links hprepared hmodule)
    rcases hrefused with hbase | hname
    · exact haccepts.1 ⟨hlocation, hbase⟩
    · exact haccepts.2 hname

def unplacedManifest : Manifest where
  defaults := [⟨"shop", ⟨""⟩, []⟩]

/-- A module without a location is refused, and linked after anchoring. -/
theorem unplaced_linked_after_anchoring :
    LinkPolicy.accepts {} (ModuleEntry.module ⟨"shop", ⟨""⟩, []⟩) = false ∧
    ∃ prepared, (Compiler.ofSettings {} (unplacedManifest.anchoredAt ⟨"."⟩).catalogue).prepareText
        "hi" = .ok prepared ∧
      prepared.links.modules = [⟨"shop", ⟨"./"⟩⟩] := by
  have hlinks : ((Compiler.ofSettings {} (unplacedManifest.anchoredAt ⟨"."⟩).catalogue).prepareText
      "hi").map (·.links.modules) = .ok [⟨"shop", ⟨"./"⟩⟩] := by decide +kernel
  obtain ⟨prepared, hprepared, hmodules⟩ := map_eq_ok_iff.mp hlinks
  exact ⟨by decide, prepared, hprepared, hmodules⟩

end Manifest

end TemplateViews
