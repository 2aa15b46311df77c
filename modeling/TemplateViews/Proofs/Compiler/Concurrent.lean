import Mathlib.Data.List.Forall2
import Mathlib.Data.List.Induction
import TemplateViews.Build.Script
import TemplateViews.Proofs.Build.Cleanup
import TemplateViews.Proofs.Build.Names
import TemplateViews.Proofs.Compiler.Stages

/-! Compilations side by side. Each of them takes its steps on the files that the others have
left, and comes as far as it would have come alone. -/

namespace TemplateViews

/-- File systems that a build of these names cannot tell apart. -/
structure BuildNames.Alike (names : BuildNames) (files files' : Files) : Prop where
  guarded : files'.guarded = files.guarded
  shortages : files'.shortages = files.shortages
  source : files.SameAt names.source files'
  library : files.SameAt names.library files'

/-- Runs of a toolchain that end in the same way, with the same library. -/
inductive BuildNames.SameEnd (names : BuildNames) :
    Except SystemError Completion → Except SystemError Completion → Prop
  | failed (error : SystemError) : names.SameEnd (.error error) (.error error)
  | ended {done done' : Completion} (status : done'.status = done.status)
      (stderr : done'.stderr = done.stderr)
      (library : done.files.SameAt names.library done'.files) :
      names.SameEnd (.ok done) (.ok done')

/-- A toolchain that goes by its arguments and by the source of a build, and that writes at
most the library of it. -/
structure Toolchain.KeepsTo (toolchain : Toolchain) (program : Path) (arguments : List String)
    (names : BuildNames) : Prop where
  depends : ∀ files files', names.Alike files files' →
    names.SameEnd (toolchain.run program arguments files) (toolchain.run program arguments files')
  writes : ∀ files done, toolchain.run program arguments files = .ok done →
    files.WritesOnly names.library done.files

/-- Runs of a toolchain on the same arguments that find the same source. -/
structure BuildNames.SameRun (names : BuildNames) (run run' : Run) : Prop where
  program : run'.program = run.program
  arguments : run'.arguments = run.arguments
  source : run'.files.read names.source = run.files.read names.source

/-- A compilation has come equally far on both hosts, and its own files are the same. -/
structure BuildNames.Agree (names : BuildNames) (one other : Stage × Host) : Prop where
  stage : other.1 = one.1
  files : names.Alike one.2.files other.2.files
  runs : List.Forall₂ names.SameRun one.2.runs other.2.runs

namespace BuildNames

section Beside

variable {start : List Char} {token other : Token} {names names' : BuildNames}
  {files files' after after' last : Files}

theorem Alike.refl (names : BuildNames) (files : Files) : names.Alike files files :=
  ⟨rfl, rfl, ⟨rfl, fun _ _ => rfl⟩, ⟨rfl, fun _ _ => rfl⟩⟩

theorem Alike.trans (h : names.Alike files after) (hlast : names.Alike after last) :
    names.Alike files last :=
  ⟨hlast.guarded.trans h.guarded, hlast.shortages.trans h.shortages, h.source.trans hlast.source,
    h.library.trans hlast.library⟩

variable (hbeside : names.Beside start token)

include hbeside

/-- What a build writes is not seen by a build with another token. -/
theorem alike_of_other (hbeside' : names'.Beside start other) (hne : token.text ≠ other.text)
    (h : files.WritesOnly names'.source after ∨ files.WritesOnly names'.library after) :
    names.Alike files after := by
  rcases h with h | h
  · exact ⟨h.guarded, h.shortages,
      h.sameAt (by decide) hbeside'.source hbeside.source (sourceEnding_ne hne),
      h.sameAt (by decide) hbeside'.source hbeside.library sourceEnding_ne_libraryEnding.symm⟩
  · exact ⟨h.guarded, h.shortages,
      h.sameAt (by decide) hbeside'.library hbeside.source sourceEnding_ne_libraryEnding,
      h.sameAt (by decide) hbeside'.library hbeside.library (libraryEnding_ne hne)⟩

variable (h : names.Alike files files')

include h

theorem Alike.of_source (hafter : files.WritesOnly names.source after)
    (hafter' : files'.WritesOnly names.source after')
    (hsame : after.SameAt names.source after') : names.Alike after after' :=
  ⟨by rw [hafter.guarded, hafter'.guarded, h.guarded],
    by rw [hafter.shortages, hafter'.shortages, h.shortages], hsame,
    h.library.of_writesOnly (by decide) hbeside.source hbeside.library
      sourceEnding_ne_libraryEnding.symm hafter hafter'⟩

theorem Alike.of_library (hafter : files.WritesOnly names.library after)
    (hafter' : files'.WritesOnly names.library after')
    (hsame : after.SameAt names.library after') : names.Alike after after' :=
  ⟨by rw [hafter.guarded, hafter'.guarded, h.guarded],
    by rw [hafter.shortages, hafter'.shortages, h.shortages],
    h.source.of_writesOnly (by decide) hbeside.library hbeside.source
      sourceEnding_ne_libraryEnding hafter hafter', hsame⟩

theorem Alike.write_source (content : List UInt8) :
    (∃ e left left', files.write names.source content = .error (e, left) ∧
      files'.write names.source content = .error (e, left') ∧ names.Alike left left') ∨
    ∃ after after', files.write names.source content = .ok after ∧
      files'.write names.source content = .ok after' ∧ names.Alike after after' := by
  rcases h.source.write (by decide) hbeside.source h.shortages content with
    ⟨e, left, left', hwrite, hwrite', hsame⟩ | ⟨after, after', hwrite, hwrite', hsame⟩
  · exact .inl ⟨e, left, left', hwrite, hwrite', h.of_source hbeside
      (Files.changesOnly_write_error hwrite).writesOnly
      (Files.changesOnly_write_error hwrite').writesOnly hsame⟩
  · exact .inr ⟨after, after', hwrite, hwrite', h.of_source hbeside
      (Files.changesOnly_write hwrite).writesOnly (Files.changesOnly_write hwrite').writesOnly hsame⟩

theorem Alike.discard_source :
    names.Alike (files.discard names.source) (files'.discard names.source) :=
  h.of_source hbeside (Files.changesOnly_discard _ _).writesOnly
    (Files.changesOnly_discard _ _).writesOnly
    (h.source.discard (by decide) hbeside.source h.guarded)

theorem Alike.discard_library :
    names.Alike (files.discard names.library) (files'.discard names.library) :=
  h.of_library hbeside (Files.changesOnly_discard _ _).writesOnly
    (Files.changesOnly_discard _ _).writesOnly
    (h.library.discard (by decide) hbeside.library h.guarded)

end Beside

end BuildNames

section Start

variable {toolchain : Toolchain} {program : Path} {arguments : List String} {names : BuildNames}
  {files files' : Files} {done : Completion}

theorem Toolchain.KeepsTo.start_sameEnd (h : toolchain.KeepsTo program arguments names)
    (hfiles : names.Alike files files') :
    names.SameEnd (toolchain.start program arguments files)
      (toolchain.start program arguments files') := by
  unfold start
  split
  · exact .failed _
  · exact h.depends files files' hfiles

theorem Toolchain.KeepsTo.writesOnly (h : toolchain.KeepsTo program arguments names)
    (hstart : toolchain.start program arguments files = .ok done) :
    files.WritesOnly names.library done.files :=
  h.writes files done (Builder.run_of_start hstart)

end Start

namespace Compiler

section Steps

variable {compiler : Compiler} {toolchain : Toolchain} {linker : Linker} {token : Token}
  {stage stage' : Stage} {host host' : Host} {start : List Char}
  (htoolchain : ∀ links, toolchain.KeepsTo compiler.settings.program
    (compiler.settings.builder.arguments (compiler.names token) links) (compiler.names token))

include htoolchain

theorem step_writesOnly (linker : Linker) (stage : Stage) (host : Host) :
    host.files.WritesOnly (compiler.names token).source
        (compiler.step toolchain linker token (stage, host)).2.files ∨
      host.files.WritesOnly (compiler.names token).library
        (compiler.step toolchain linker token (stage, host)).2.files := by
  unfold step
  generalize compiler.names token = names at htoolchain ⊢
  have hsame (p : Path) : host.files.WritesOnly p host.files :=
    (Files.ChangesOnly.refl p host.files).writesOnly
  have hdiscard (p : Path) : host.files.WritesOnly p (host.files.discard p) :=
    (Files.changesOnly_discard _ _).writesOnly
  cases stage with
  | prepared view =>
    dsimp only
    split
    · next e files hwrite => exact .inl (Files.changesOnly_write_error hwrite).writesOnly
    · next files hwrite => exact .inl (Files.changesOnly_write hwrite).writesOnly
  | written view =>
    dsimp only
    split
    · exact .inl (hsame _)
    · next done hstart => exact .inr ((htoolchain view.links).writesOnly hstart)
  | refused e => exact .inl (hdiscard _)
  | compiled view status stderr => exact .inl (hdiscard _)
  | cleared verdict =>
    cases verdict with
    | error errors => exact .inr (hdiscard _)
    | ok warnings =>
      dsimp only [Builder.settle]
      cases host.files.holds names.library with
      | true => exact .inl (hsame _)
      | false => exact .inl (hsame _)
  | built warnings => exact .inl (hsame _)
  | ended result => exact .inl (hsame _)

/-- A step that finds its own files the same does the same. -/
theorem step_agree (hbeside : (compiler.names token).Beside start token)
    (h : (compiler.names token).Agree (stage, host) (stage', host')) :
    (compiler.names token).Agree (compiler.step toolchain linker token (stage, host))
      (compiler.step toolchain linker token (stage', host')) := by
  obtain ⟨hstage, hfiles, hruns⟩ := h
  dsimp only at hstage hfiles hruns
  subst hstage
  unfold step
  generalize compiler.names token = names at *
  cases stage' with
  | prepared view =>
    dsimp only [Builder.writeSource]
    rcases hfiles.write_source hbeside (Utf8.encode view.source.code.toList) with
      ⟨e, left, left', hwrite, hwrite', hleft⟩ | ⟨after, after', hwrite, hwrite', hafter⟩
    · rw [hwrite, hwrite']
      exact ⟨rfl, hleft, hruns⟩
    · rw [hwrite, hwrite']
      exact ⟨rfl, hafter, hruns⟩
  | written view =>
    dsimp only
    have hkeeps := htoolchain view.links
    have hend := hkeeps.start_sameEnd hfiles
    generalize hone : toolchain.start _ _ host.files = one at hend ⊢
    generalize hother : toolchain.start _ _ host'.files = other at hend ⊢
    cases hend with
    | failed e => exact ⟨rfl, hfiles, hruns⟩
    | ended hstatus hstderr hlibrary =>
      dsimp only
      refine ⟨by rw [hstatus, hstderr], hfiles.of_library hbeside (hkeeps.writesOnly hone)
        (hkeeps.writesOnly hother) hlibrary, ?_⟩
      exact List.rel_append hruns (.cons ⟨rfl, rfl, hfiles.source.read_eq⟩ .nil)
  | refused e => exact ⟨rfl, hfiles.discard_source hbeside, hruns⟩
  | compiled view status stderr => exact ⟨rfl, hfiles.discard_source hbeside, hruns⟩
  | cleared verdict =>
    cases verdict with
    | error errors => exact ⟨rfl, hfiles.discard_library hbeside, hruns⟩
    | ok warnings =>
      dsimp only [Builder.settle]
      rw [hfiles.library.holds_eq]
      cases host.files.holds names.library with
      | true => exact ⟨rfl, hfiles, hruns⟩
      | false => exact ⟨rfl, hfiles, hruns⟩
  | built warnings =>
    refine ⟨?_, hfiles, hruns⟩
    dsimp only [View.load, Linker.open?]
    rw [hfiles.library.read_eq]
  | ended result => exact ⟨rfl, hfiles, hruns⟩

end Steps

end Compiler

/-- Files on which several compilations work, how far each of them has come, and what each of
them has run. -/
structure World (ι : Type) where
  files : Files
  stage : ι → Stage
  runs : ι → List Run

namespace World

variable {ι : Type}

/-- The world as one of the compilations finds it. -/
def seenBy (world : World ι) (i : ι) : Stage × Host :=
  (world.stage i, ⟨world.files, world.runs i⟩)

def start (compiler : Compiler) (template : ι → String) (files : Files) : World ι :=
  ⟨files, fun i => compiler.firstStage (template i), fun _ => []⟩

variable [DecidableEq ι]

/-- One of the compilations takes its next step. -/
def move (compiler : Compiler) (toolchain : Toolchain) (linker : Linker) (token : ι → Token)
    (world : World ι) (i : ι) : World ι :=
  let after := compiler.step toolchain linker (token i) (world.seenBy i)
  ⟨after.2.files, Function.update world.stage i after.1, Function.update world.runs i after.2.runs⟩

/-- The compilations take their steps in an order of any kind. -/
def play (compiler : Compiler) (toolchain : Toolchain) (linker : Linker) (token : ι → Token)
    (world : World ι) (order : List ι) : World ι :=
  order.foldl (move compiler toolchain linker token) world

theorem play_append_singleton {compiler : Compiler} {toolchain : Toolchain} {linker : Linker}
    {token : ι → Token} {world : World ι} (order : List ι) (i : ι) :
    world.play compiler toolchain linker token (order ++ [i]) =
      (world.play compiler toolchain linker token order).move compiler toolchain linker token i := by
  rw [play, List.foldl_append, List.foldl_cons, List.foldl_nil, play]

section Moves

variable {compiler : Compiler} {toolchain : Toolchain} {linker : Linker} {token : ι → Token}
  {world : World ι} {i j : ι} {start : List Char} {alone : Stage × Host}
  (htoolchain : ∀ i links, toolchain.KeepsTo compiler.settings.program
    (compiler.settings.builder.arguments (compiler.names (token i)) links)
    (compiler.names (token i)))
  (hbeside : ∀ i, (compiler.names (token i)).Beside start (token i))
  (h : (compiler.names (token i)).Agree alone (world.seenBy i))

include htoolchain hbeside h

theorem agree_move_self :
    (compiler.names (token i)).Agree (compiler.step toolchain linker (token i) alone)
      ((world.move compiler toolchain linker token i).seenBy i) := by
  have hmove : (world.move compiler toolchain linker token i).seenBy i =
      compiler.step toolchain linker (token i) (world.seenBy i) := by
    simp only [seenBy, move, Function.update_self]
  rw [hmove]
  exact Compiler.step_agree (htoolchain i) (hbeside i) h

/-- The step of another compilation changes nothing for this one. -/
theorem agree_move_of_ne (htokens : (token i).text ≠ (token j).text) :
    (compiler.names (token i)).Agree alone
      ((world.move compiler toolchain linker token j).seenBy i) := by
  have hij : i ≠ j := by
    rintro rfl
    exact htokens rfl
  have hmove : (world.move compiler toolchain linker token j).seenBy i =
      (world.stage i,
        ⟨(compiler.step toolchain linker (token j) (world.seenBy j)).2.files, world.runs i⟩) := by
    simp only [seenBy, move, Function.update_of_ne hij]
  have hothers := Compiler.step_writesOnly (htoolchain j) linker (world.stage j)
    ⟨world.files, world.runs j⟩
  rw [hmove]
  exact ⟨h.stage, h.files.trans (BuildNames.alike_of_other (hbeside i) (hbeside j) htokens hothers),
    h.runs⟩

end Moves

end World

namespace Compiler

section Interleaving

variable {ι : Type} [DecidableEq ι] {compiler : Compiler} {toolchain : Toolchain} {linker : Linker}
  {token : ι → Token} {template : ι → String} {files : Files}

/-- Among others a compilation is where it would be alone after as many steps of its own, and
it ends as it would alone. -/
structure Undisturbed (compiler : Compiler) (toolchain : Toolchain) (linker : Linker)
    (token : ι → Token) (template : ι → String) (files : Files) (order : List ι) (i : ι)
    (host : Stage × Host) : Prop where
  agrees : (compiler.names (token i)).Agree
    ((compiler.step toolchain linker (token i))^[order.count i]
      (compiler.firstStage (template i), ⟨files, []⟩)) host
  ends : 5 ≤ order.count i → (compiler.names (token i)).Agree
    (.ended (compiler.compileText toolchain linker (token i) (template i) ⟨files, []⟩).1,
      (compiler.compileText toolchain linker (token i) (template i) ⟨files, []⟩).2) host

theorem play_agree (htokens : ∀ i j, i ≠ j → (token i).text ≠ (token j).text)
    (htoolchain : ∀ i links, toolchain.KeepsTo compiler.settings.program
      (compiler.settings.builder.arguments (compiler.names (token i)) links)
      (compiler.names (token i)))
    (order : List ι) (i : ι) :
    (compiler.names (token i)).Agree
      ((compiler.step toolchain linker (token i))^[order.count i]
        (compiler.firstStage (template i), ⟨files, []⟩))
      (((World.start compiler template files).play compiler toolchain linker token order).seenBy
        i) := by
  obtain ⟨start, hfresh⟩ :=
    BuildNames.exists_beside_fresh compiler.settings.scratchDir compiler.settings.stem
  have hbeside (i : ι) : (compiler.names (token i)).Beside start (token i) := hfresh (token i)
  -- the last step is taken off: what came before it started on the same files
  induction order using List.reverseRecOn with
  | nil => exact ⟨rfl, .refl _ _, .nil⟩
  | append_singleton order j ih =>
    rw [World.play_append_singleton, List.count_append]
    by_cases hj : i = j
    · subst hj
      rw [List.count_singleton_self, Function.iterate_succ_apply']
      exact World.agree_move_self htoolchain hbeside ih
    · rw [List.count_singleton, if_neg (by simpa using Ne.symm hj), Nat.add_zero]
      exact World.agree_move_of_ne htoolchain hbeside ih (htokens i j hj)

/-- Compilations with tokens of their own do not disturb each other, in whatever order they
take their steps. -/
theorem play_undisturbed (htokens : ∀ i j, i ≠ j → (token i).text ≠ (token j).text)
    (htoolchain : ∀ i links, toolchain.KeepsTo compiler.settings.program
      (compiler.settings.builder.arguments (compiler.names (token i)) links)
      (compiler.names (token i)))
    (order : List ι) (i : ι) :
    Undisturbed compiler toolchain linker token template files order i
      (((World.start compiler template files).play compiler toolchain linker token order).seenBy
        i) where
  agrees := play_agree htokens htoolchain order i
  ends := fun hsteps => by
    rw [← iterate_step_firstStage _ _ hsteps]
    exact play_agree htokens htoolchain order i

end Interleaving

end Compiler

section Script

variable {script : Script} {arguments : List String} {names : BuildNames} {token : Token}
  {start : List Char} {builder : Builder}

theorem Builder.output?_arguments (hcrate : names.crateName ≠ "-o")
    (hedition : builder.edition ≠ "-o") (links : Links) :
    Script.output? (builder.arguments names links) = some names.library := by
  simp [Builder.arguments, Script.output?, hcrate, hedition]

theorem Script.keepsTo (hkeeps : script.keepsSource = true)
    (hproduct : script.product ≠ .directory) (hbeside : names.Beside start token)
    (houtput : Script.output? arguments = some names.library) :
    script.toolchain.KeepsTo script.program arguments names where
  depends := fun files files' hfiles => by
    have hrun (files : Files) : script.toolchain.run script.program arguments files =
        .ok ⟨script.status, script.errorText (arguments.getLast?.getD ""),
          put script.product names.library files⟩ := by
      simp [toolchain, perform, houtput, hkeeps]
    rw [hrun, hrun]
    refine .ended rfl rfl ?_
    cases hput : script.product with
    | nothing => exact hfiles.library
    | file content =>
      rcases hfiles.library.write (by decide) hbeside.library hfiles.shortages content with
        ⟨e, left, left', hwrite, hwrite', hsame⟩ | ⟨after, after', hwrite, hwrite', hsame⟩
      · simpa only [put, hwrite, hwrite'] using hsame
      · simpa only [put, hwrite, hwrite'] using hsame
    | directory => exact absurd hput hproduct
  writes := fun files done hrun =>
    (Builder.changesOnly_of_script hkeeps hproduct houtput hrun).writesOnly

end Script

namespace Compiler

def sharedCompiler : Compiler := ofSettings {} .standard

def sharedScript : Script where
  program := sharedCompiler.settings.program
  product := .file [0x7f]

/-- Every library has a view of the expected name, whose page is the library. -/
def anyView : Linker where
  inspect content := some ⟨some ⟨some [
    ⟨.bytes (Utf8.encode sharedCompiler.viewName.toList), .null 0, .null 0,
      fun _ _ => ⟨[content], 0⟩⟩]⟩⟩

def twoTokens (i : Bool) : Token := ⟨i.toNat⟩

def twoTemplates (i : Bool) : String := if i then "yes" else "no"

def crossing : List Bool :=
  [false, true, true, false, false, true, false, true, true, false]

theorem play_undisturbed_crossing :
    (∀ i j, i ≠ j → (twoTokens i).text ≠ (twoTokens j).text) ∧
    (∀ i links, sharedScript.toolchain.KeepsTo sharedCompiler.settings.program
      (sharedCompiler.settings.builder.arguments (sharedCompiler.names (twoTokens i)) links)
      (sharedCompiler.names (twoTokens i))) ∧
    ∀ i, 5 ≤ crossing.count i ∧
      Undisturbed sharedCompiler sharedScript.toolchain anyView twoTokens twoTemplates
        Builder.scratchHost.files crossing i
        (((World.start sharedCompiler twoTemplates Builder.scratchHost.files).play sharedCompiler
          sharedScript.toolchain anyView twoTokens crossing).seenBy i) := by
  have htokens : ∀ i j, i ≠ j → (twoTokens i).text ≠ (twoTokens j).text := by decide +kernel
  have htoolchain : ∀ i links, sharedScript.toolchain.KeepsTo sharedCompiler.settings.program
      (sharedCompiler.settings.builder.arguments (sharedCompiler.names (twoTokens i)) links)
      (sharedCompiler.names (twoTokens i)) := by
    intro i links
    obtain ⟨start, hbeside⟩ := BuildNames.exists_beside_fresh
      sharedCompiler.settings.scratchDir sharedCompiler.settings.stem
    have hcrate : ∀ i, (sharedCompiler.names (twoTokens i)).crateName ≠ "-o" := by decide +kernel
    exact Script.keepsTo rfl (by decide) (hbeside (twoTokens i))
      (Builder.output?_arguments (hcrate i) (by decide) links)
  exact ⟨htokens, htoolchain, fun i => ⟨by cases i <;> decide,
    play_undisturbed htokens htoolchain crossing i⟩⟩

end Compiler

end TemplateViews
