import TemplateViews.Path
import TemplateViews.Text.Split

/-! The catalogue of known types. Compiled modules stand in it with the types they
export, in two tiers: the default modules are searched before all others. In a tier a
type is found by its full path or by the last name of it, and the first one entered
under a name keeps it. -/

namespace TemplateViews

/-- A compiled module that a view can be linked with. -/
structure Module where
  name : String
  location : Path
  deriving DecidableEq, Repr

structure TypeEntry where
  path : String
  arity : Nat := 0
  deriving DecidableEq, Repr

structure ModuleEntry where
  name : String
  location : Path
  types : List TypeEntry := []
  deriving DecidableEq, Repr

def ModuleEntry.module (entry : ModuleEntry) : Module := ⟨entry.name, entry.location⟩

/-- A type with the module that exports it; its path starts with no double colon. -/
structure KnownType where
  path : String
  arity : Nat
  module : Module
  deriving DecidableEq, Repr

def KnownType.lastName (type : KnownType) : String :=
  String.ofList (afterColons type.path.toList)

def ModuleEntry.knownTypes (entry : ModuleEntry) : List KnownType :=
  entry.types.map fun type =>
    ⟨String.ofList (dropColons type.path.toList), type.arity, entry.module⟩

/-- Types by a key; the first one entered under a key stays. -/
abbrev TypeIndex := List (String × KnownType)

def TypeIndex.enter (index : TypeIndex) (key : String) (type : KnownType) : TypeIndex :=
  if (index.lookup key).isSome then index else index ++ [(key, type)]

structure Tier where
  modules : List Module := []
  byPath : TypeIndex := []
  byName : TypeIndex := []
  deriving DecidableEq, Repr

namespace Tier

def enter (tier : Tier) (type : KnownType) : Tier :=
  { tier with
    byPath := tier.byPath.enter type.path type
    byName := tier.byName.enter type.lastName type }

def add (tier : Tier) (entry : ModuleEntry) : Tier :=
  let tier := entry.knownTypes.foldl enter tier
  { tier with modules := tier.modules ++ [entry.module] }

/-- A base with double colons is a full path, any other a last name. -/
def find? (tier : Tier) (base : String) : Option KnownType :=
  if hasColons base.toList then tier.byPath.lookup base else tier.byName.lookup base

end Tier

structure Catalogue where
  defaults : Tier := {}
  registered : Tier := {}
  deriving DecidableEq, Repr

namespace Catalogue

def empty : Catalogue := {}

/-- Default modules are searched first and linked with every view. -/
def addDefault (catalogue : Catalogue) (entry : ModuleEntry) : Catalogue :=
  { catalogue with defaults := catalogue.defaults.add entry }

def register (catalogue : Catalogue) (entry : ModuleEntry) : Catalogue :=
  { catalogue with registered := catalogue.registered.add entry }

def modules (catalogue : Catalogue) : List Module :=
  catalogue.defaults.modules ++ catalogue.registered.modules

def find? (catalogue : Catalogue) (base : String) : Option KnownType :=
  catalogue.defaults.find? base <|> catalogue.registered.find? base

end Catalogue

def primitiveTypes : List String :=
  ["bool", "char", "i8", "i16", "i32", "i64", "i128", "isize", "u8", "u16", "u32", "u64",
    "u128", "usize", "f32", "f64"]

/-- The built-in module of the types that are there without a library. Its location
is no file. -/
def standardModule : ModuleEntry where
  name := "std"
  location := ⟨"std"⟩
  types := primitiveTypes.map (⟨·, 0⟩) ++ [
    ⟨"std::string::String", 0⟩,
    ⟨"std::vec::Vec", 1⟩,
    ⟨"std::option::Option", 1⟩,
    ⟨"std::boxed::Box", 1⟩,
    ⟨"std::result::Result", 2⟩,
    ⟨"std::collections::HashMap", 2⟩,
    ⟨"std::collections::BTreeMap", 2⟩]

namespace Catalogue

def standard : Catalogue := empty.addDefault standardModule

/-- Enters modules of both tiers, the default ones first. -/
def enter (catalogue : Catalogue) (defaults modules : List ModuleEntry) : Catalogue :=
  modules.foldl register (defaults.foldl addDefault catalogue)

end Catalogue

end TemplateViews
