import TemplateViews.Build.Builder
import TemplateViews.Proofs.Links.Directories

/-! The command line of a build. Read as options with their values, it has the options of the
build, those of its links, the configured search directories and the source, in this order. The
options of links name every module and every directory that modules lie in. -/

namespace TemplateViews

section Blocks

variable {α : Type} {p : α → Bool} {a : α} {front block back before after : List α}

/-- A block stands in one place if items like its first one stand nowhere around it. -/
theorem eq_of_append_block_eq (hfront : ∀ b ∈ front, p b = false) (hback : ∀ b ∈ back, p b = false)
    (ha : p a = true)
    (h : front ++ a :: block ++ back = before ++ a :: block ++ after) :
    before = front ∧ after = back := by
  -- the block counts all items of its kind, so that none is left for what stands in front
  have hbefore : ∀ b ∈ before, p b = false := by
    have hcount := congrArg (List.countP p) h
    have hnone : front.countP p = 0 := List.countP_eq_zero.mpr (by simpa using hfront)
    have hlast : back.countP p = 0 := List.countP_eq_zero.mpr (by simpa using hback)
    simp only [List.countP_append] at hcount
    have hzero : before.countP p = 0 := by omega
    simpa using List.countP_eq_zero.mp hzero
  have htake {start rest : List α} (hstart : ∀ b ∈ start, p b = false) :
      (start ++ a :: rest).takeWhile (fun b => !p b) = start := by
    rw [List.takeWhile_append_of_pos (by simpa using hstart),
      List.takeWhile_cons_of_neg (by simp [ha]), List.append_nil]
  rw [List.append_assoc, List.append_assoc, List.cons_append, List.cons_append] at h
  have hsame : before = front := by
    have htaken := congrArg (List.takeWhile fun b => !p b) h
    rw [htake hfront, htake hbefore] at htaken
    exact htaken.symm
  subst hsame
  exact ⟨rfl, (List.append_cancel_left (List.cons.inj (List.append_cancel_left h)).2).symm⟩

end Blocks

namespace Builder

inductive Argument
  | alone (text : String)
  | option (name value : String)
  deriving DecidableEq, Repr

def Argument.texts : Argument → List String
  | alone text => [text]
  | option name value => [name, value]

def Argument.isExtern : Argument → Bool
  | alone _ => false
  | option name _ => name == "--extern"

/-- Options whose value is the argument behind them, whatever that looks like. -/
def valued : List String :=
  ["--crate-type", "--crate-name", "--edition", "-C", "-o", "--extern", "-L"]

def readArguments : List String → List Argument
  | [] => []
  | [text] => [.alone text]
  | name :: value :: rest =>
    if name ∈ valued then .option name value :: readArguments rest
    else .alone name :: readArguments (value :: rest)

def buildOptions (edition : String) (names : BuildNames) : List Argument :=
  [.option "--crate-type" "cdylib", .option "--crate-name" names.crateName,
    .option "--edition" edition, .alone "--error-format=json", .option "-C" "debuginfo=0",
    .option "-o" names.library.text]

def linkOptions (modules : List Module) (dirs : List Path) : List Argument :=
  modules.map (fun module => .option "--extern" (module.name ++ "=" ++ module.location.text)) ++
    dirs.map fun dir => .option "-L" ("dependency=" ++ dir.text)

def searchOptions (dirs : List Path) : List Argument :=
  dirs.map fun dir => .option "-L" dir.text

/-- How links and directories stand on a command line. A value can look like an option, so that
there is one block of links is said of the arguments as they are read. -/
structure Carries (settings : Settings) (names : BuildNames) (links : Links) (dirs : List Path)
    (line : List String) : Prop where
  block : links.arguments = (linkOptions links.modules dirs).flatMap Argument.texts
  texts : line = (buildOptions settings.edition names).flatMap Argument.texts ++ links.arguments ++
    (searchOptions settings.searchDirs).flatMap Argument.texts ++ [names.source.text]
  read : readArguments line =
    buildOptions settings.edition names ++ linkOptions links.modules dirs ++
      (searchOptions settings.searchDirs ++ [.alone names.source.text])
  once : links.modules ≠ [] → ∀ before after,
    readArguments line = before ++ linkOptions links.modules dirs ++ after →
      before = buildOptions settings.edition names ∧
        after = searchOptions settings.searchDirs ++ [.alone names.source.text]

section Reading

variable {β : Type} {name : String} {value : β → String} {items : List β} {rest : List String}

theorem flatMap_texts_readArguments (line : List String) :
    (readArguments line).flatMap Argument.texts = line := by
  fun_induction readArguments line with
  | case1 => rfl
  | case2 text => rfl
  | case3 name value rest hvalued ih => rw [List.flatMap_cons, ih]; rfl
  | case4 name value rest hvalued ih => rw [List.flatMap_cons, ih]; rfl

theorem readArguments_options (hname : name ∈ valued) :
    readArguments (items.flatMap (fun item => [name, value item]) ++ rest) =
      items.map (fun item => .option name (value item)) ++ readArguments rest := by
  induction items with
  | nil => rfl
  | cons item items ih =>
    have hread : readArguments (name :: value item ::
        (items.flatMap (fun item => [name, value item]) ++ rest)) =
        .option name (value item) ::
          readArguments (items.flatMap (fun item => [name, value item]) ++ rest) := if_pos hname
    rw [List.flatMap_cons, List.append_assoc, List.cons_append, List.cons_append, List.nil_append,
      hread, ih, List.map_cons, List.cons_append]

end Reading

variable {builder : Builder} {names : BuildNames} {links : Links}

theorem readArguments_arguments : readArguments (builder.arguments names links) =
    buildOptions builder.edition names ++ linkOptions links.modules links.directories ++
      (searchOptions builder.searchDirs ++ [.alone names.source.text]) := by
  have hextern : "--extern" ∈ valued := by decide
  have hlibrary : "-L" ∈ valued := by decide
  have hfront (rest : List String) : readArguments (["--crate-type", "cdylib", "--crate-name",
      names.crateName, "--edition", builder.edition, "--error-format=json", "-C", "debuginfo=0",
      "-o", names.library.text] ++ rest) =
      buildOptions builder.edition names ++ readArguments rest := by
    cases rest <;> simp [readArguments, valued, buildOptions]
  rw [arguments, Links.arguments, List.append_assoc, List.append_assoc, List.append_assoc, hfront,
    readArguments_options hextern, readArguments_options hlibrary, readArguments_options hlibrary]
  simp only [linkOptions, searchOptions, readArguments, List.append_assoc]

theorem arguments_eq_flatMap_texts :
    links.arguments = (linkOptions links.modules links.directories).flatMap Argument.texts := by
  rw [Links.arguments, linkOptions, List.flatMap_append, List.flatMap_map, List.flatMap_map]
  rfl

theorem eq_of_linkOptions_between {modules : List Module} {dirs searchDirs : List Path}
    {edition source : String} {before after : List Argument} (hmodules : modules ≠ [])
    (h : buildOptions edition names ++ linkOptions modules dirs ++
      (searchOptions searchDirs ++ [.alone source]) = before ++ linkOptions modules dirs ++ after) :
    before = buildOptions edition names ∧ after = searchOptions searchDirs ++ [.alone source] := by
  obtain ⟨module, modules, rfl⟩ := List.exists_cons_of_ne_nil hmodules
  refine eq_of_append_block_eq (p := Argument.isExtern) ?_ ?_ rfl h
  · simp [buildOptions, Argument.isExtern]
  · intro argument hargument
    obtain hsearch | hsource := List.mem_append.mp hargument
    · obtain ⟨dir, -, rfl⟩ := List.mem_map.mp hsearch
      exact (by decide : ("-L" == "--extern") = false)
    · obtain rfl := List.mem_singleton.mp hsource
      rfl

/-- Links become options for each of their modules and for each directory that these lie in. On
the command line they stand once, right in front of the configured search directories, and behind
these is the source. -/
theorem arguments_cover_modules (settings : Settings) (names : BuildNames) (links : Links) :
    ∃ dirs, Links.DirectoriesOf links.modules dirs ∧
      Carries settings names links dirs (settings.builder.arguments names links) := by
  refine ⟨links.directories, links.directoriesOf_directories, ?_, ?_, ?_, ?_⟩
  · exact arguments_eq_flatMap_texts
  · have htexts := flatMap_texts_readArguments (settings.builder.arguments names links)
    rw [readArguments_arguments, List.flatMap_append, List.flatMap_append, List.flatMap_append,
      ← arguments_eq_flatMap_texts, ← List.append_assoc] at htexts
    exact htexts.symm
  · exact readArguments_arguments
  · intro hmodules before after hread
    rw [readArguments_arguments] at hread
    exact eq_of_linkOptions_between hmodules hread

/-- Two modules in one directory, whose location is written in two ways. -/
example : Links.arguments ⟨[⟨"shop", ⟨"/libs/libshop.rlib"⟩⟩, ⟨"cart", ⟨"/libs//libcart.rlib"⟩⟩]⟩ =
    ["--extern", "shop=/libs/libshop.rlib", "--extern", "cart=/libs//libcart.rlib",
      "-L", "dependency=/libs"] := by
  decide +kernel

end Builder

end TemplateViews
