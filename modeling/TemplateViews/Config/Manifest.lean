import TemplateViews.Config.Settings
import TemplateViews.Json.Decode
import TemplateViews.Json.Read

/-! Manifests: JSON files that list the modules templates may use and override
settings. Their locations and directories are relative to their own directory. -/

namespace TemplateViews

/-- Settings that a manifest overrides; search directories are added. -/
structure Overrides where
  scope : Option String := none
  type : Option String := none
  edition : Option String := none
  program : Option Path := none
  scratchDir : Option Path := none
  stem : Option String := none
  excluded : Option (List String) := none
  searchDirs : List Path := []
  deriving DecidableEq, Repr

structure Manifest where
  overrides : Overrides := {}
  /-- Modules that are searched first and linked with every view. -/
  defaults : List ModuleEntry := []
  modules : List ModuleEntry := []
  deriving DecidableEq, Repr

open Json

def decodePath : Decoder Path := fun value => (decodeString "path string" value).map Path.mk

def TypeEntry.record : Record TypeEntry where
  name := "TypeSpec"
  strict := false
  draft := { path := "" }
  fields := [
    .of "path" .required decodeString fun path entry => { entry with path := path },
    .of "generic_params" .free decodeNat fun arity entry => { entry with arity := arity }]

def ModuleEntry.record : Record ModuleEntry where
  name := "ModuleSpec"
  strict := false
  draft := { name := "", location := ⟨""⟩ }
  fields := [
    .of "name" .required decodeString fun name entry => { entry with name := name },
    .of "location" .required decodePath fun location entry => { entry with location := location },
    .of "types" .free (decodeList TypeEntry.record.decode) fun types entry =>
      { entry with types := types }]

def Overrides.record : Record Overrides where
  name := "ManifestOptions"
  strict := true
  draft := {}
  fields := [
    .of "namespace" .named (decodeOption decodeString) fun scope o => { o with scope := scope },
    .of "class_name" .named (decodeOption decodeString) fun type o => { o with type := type },
    .of "edition" .named (decodeOption decodeString) fun edition o => { o with edition := edition },
    .of "rustc" .named (decodeOption decodePath) fun program o => { o with program := program },
    .of "temp_dir" .named (decodeOption decodePath) fun dir o => { o with scratchDir := dir },
    .of "artifact_prefix" .named (decodeOption decodeString) fun stem o => { o with stem := stem },
    .of "excluded_crates" .named (decodeOption (decodeList decodeString)) fun names o =>
      { o with excluded := names },
    .of "search_dirs" .free (decodeList decodePath) fun dirs o => { o with searchDirs := dirs }]

namespace Manifest

def record : Record Manifest where
  name := "ModuleManifest"
  strict := true
  draft := {}
  fields := [
    .of "options" .free Overrides.record.decode fun overrides m =>
      { m with overrides := overrides },
    .of "defaults" .free (decodeList ModuleEntry.record.decode) fun defaults m =>
      { m with defaults := defaults },
    .of "modules" .free (decodeList ModuleEntry.record.decode) fun modules m =>
      { m with modules := modules }]

def ofJson (text : String) : Except DecodeError Manifest :=
  (Document.ofText text).decode record.decode

def anchor (base p : Path) : Path := if p.isAbsolute then p else base.join p

def anchoredAt (base : Path) (m : Manifest) : Manifest where
  overrides := { m.overrides with
    scratchDir := m.overrides.scratchDir.map (anchor base)
    searchDirs := m.overrides.searchDirs.map (anchor base) }
  defaults := m.defaults.map fun entry => { entry with location := anchor base entry.location }
  modules := m.modules.map fun entry => { entry with location := anchor base entry.location }

def catalogue (m : Manifest) : Catalogue := Catalogue.standard.enter m.defaults m.modules

def adjust (m : Manifest) (settings : Settings) : Settings where
  program := m.overrides.program.getD settings.program
  edition := m.overrides.edition.getD settings.edition
  scratchDir := m.overrides.scratchDir.getD settings.scratchDir
  stem := m.overrides.stem.getD settings.stem
  view := ⟨m.overrides.scope.getD settings.view.scope, m.overrides.type.getD settings.view.type⟩
  excluded := m.overrides.excluded.getD settings.excluded
  searchDirs := settings.searchDirs ++ m.overrides.searchDirs

end Manifest

end TemplateViews
