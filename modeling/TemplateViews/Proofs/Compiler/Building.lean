import TemplateViews.Compiler
import TemplateViews.Proofs.Files.Changes
import TemplateViews.Proofs.Template.Stream
import TemplateViews.Proofs.Template.Updates

/-! A compilation prepares its template and then builds what was prepared. What is not prepared
has no effect, and what is handed to the toolchain is the source that was generated, with the
links that were collected. The text of a template may come from a stream or a cell. -/

namespace TemplateViews

namespace Builder

variable {builder : Builder} {toolchain : Toolchain} {names : BuildNames} {links : Links}
  {source : ViewSource} {host : Host} {written : Files}

/-- The arguments around those of the links do not depend on them. -/
theorem exists_arguments_eq (builder : Builder) (names : BuildNames) : ∃ before after,
    before ++ after = builder.arguments names {} ∧
    ∀ links : Links, builder.arguments names links = before ++ links.arguments ++ after := by
  refine ⟨_, builder.searchDirs.flatMap (fun dir => ["-L", dir.text]) ++ [names.source.text], ?_,
    fun links => (List.append_assoc _ _ _)⟩
  rw [arguments, List.append_assoc, List.append_assoc]
  rfl

theorem build_of_writeSource_error {e : SystemError} {left : Files}
    (h : writeSource names source host.files = .error (e, left)) :
    builder.build toolchain names links source host =
      (.error (.system e), { host with files := left }) := by
  rw [build, h]

theorem runs_build_of_start_error {e : SystemError}
    (h : writeSource names source host.files = .ok written)
    (hstart : toolchain.start builder.program (builder.arguments names links) written = .error e) :
    (builder.build toolchain names links source host).2.runs = host.runs := by
  rw [build, h]
  dsimp only
  rw [hstart]

theorem runs_build_of_start_ok {done : Completion}
    (h : writeSource names source host.files = .ok written)
    (hstart : toolchain.start builder.program (builder.arguments names links) written = .ok done) :
    (builder.build toolchain names links source host).2.runs =
      host.runs ++ [⟨builder.program, builder.arguments names links, written⟩] := by
  rw [build, h]
  dsimp only
  rw [hstart]

/-- A toolchain is asked once, so one that gives the same answer makes the same build. -/
theorem build_congr {other : Toolchain} (h : writeSource names source host.files = .ok written)
    (hsame : other.start builder.program (builder.arguments names links) written =
      toolchain.start builder.program (builder.arguments names links) written) :
    builder.build other names links source host = builder.build toolchain names links source host := by
  rw [build, build, h]
  dsimp only
  rw [hsame]

end Builder

namespace Compiler

variable {compiler : Compiler} {toolchain : Toolchain} {linker : Linker} {token : Token}
  {template : String} {host : Host} {prepared : Prepared}

/-- A run of the toolchain on a prepared view: only the source was written, and the arguments
hold those of the links between others. -/
structure HandsOver (compiler : Compiler) (token : Token) (before after : List String)
    (prepared : Prepared) (files : Files) (run : Run) : Prop where
  program : run.program = compiler.settings.program
  arguments : run.arguments = before ++ prepared.links.arguments ++ after
  source : (run.files.read (compiler.names token).source).map List.toByteArray =
    .ok prepared.source.code.toUTF8
  changes : files.ChangesOnly (compiler.names token).source run.files

/-- A compilation of a text, and the same text from a stream or a cell. -/
structure PreparesThenBuilds (compiler : Compiler) (token : Token) (before after : List String)
    (toolchain : Toolchain) (linker : Linker) (template : String) (host : Host) : Prop where
  early : ∀ failure, compiler.prepareText template = .error failure →
    compiler.compileText toolchain linker token template host = (.error failure, host)
  builds : ∀ prepared, compiler.prepareText template = .ok prepared →
    compiler.generateSource template = .ok prepared.source ∧
    compiler.compileText toolchain linker token template host =
      compiler.finish toolchain linker token prepared host
  unwritten : ∀ prepared e left, compiler.prepareText template = .ok prepared →
    Builder.writeSource (compiler.names token) prepared.source host.files = .error (e, left) →
    compiler.compileText toolchain linker token template host =
      (.error (.system e), { host with files := left })
  handed : ∀ prepared written, compiler.prepareText template = .ok prepared →
    Builder.writeSource (compiler.names token) prepared.source host.files = .ok written →
    ∃ run, compiler.HandsOver token before after prepared host.files run ∧
      (∀ e, toolchain.start run.program run.arguments run.files = .error e →
        (compiler.compileText toolchain linker token template host).2.runs = host.runs) ∧
      (∀ done, toolchain.start run.program run.arguments run.files = .ok done →
        (compiler.compileText toolchain linker token template host).2.runs = host.runs ++ [run]) ∧
      ∀ other : Toolchain, other.start run.program run.arguments run.files =
          toolchain.start run.program run.arguments run.files →
        compiler.compileText other linker token template host =
          compiler.compileText toolchain linker token template host
  stream : ∀ chunks : Chunks, chunks.flatten.toByteArray = template.toUTF8 →
    compiler.compileChunks toolchain linker token chunks host =
      compiler.compileText toolchain linker token template host
  cell : ∀ cell : Cell, cell.installed.text = template → ∃ cell', cell'.installed.text = template ∧
    compiler.compileCell toolchain linker token cell host =
      ((compiler.compileText toolchain linker token template host).1,
        (compiler.compileText toolchain linker token template host).2, cell')
  invalid : ∀ chunks : Chunks, ¬ chunks.flatten.toByteArray.IsValidUTF8 →
    compiler.compileChunks toolchain linker token chunks host = (.error (.system .invalidText), host)

theorem compileText_of_prepareText_error {failure : Failure}
    (h : compiler.prepareText template = .error failure) :
    compiler.compileText toolchain linker token template host = (.error failure, host) := by
  rw [prepareText] at h
  rw [compileText, compile, h]

theorem compileText_of_prepareText_ok (h : compiler.prepareText template = .ok prepared) :
    compiler.compileText toolchain linker token template host =
      compiler.finish toolchain linker token prepared host := by
  rw [prepareText] at h
  rw [compileText, compile, h]

theorem snd_finish : (compiler.finish toolchain linker token prepared host).2 =
    (compiler.settings.builder.build toolchain (compiler.names token) prepared.links prepared.source
      host).2 := by
  unfold finish
  split
  · next h => rw [h]
  · next h => rw [h]

theorem compileChunks_of_flatten {chunks : Chunks}
    (h : chunks.flatten.toByteArray = template.toUTF8) :
    compiler.compileChunks toolchain linker token chunks host =
      compiler.compileText toolchain linker token template host := by
  rw [compileChunks, Scanned.ofChunks_of_flatten (Utf8.toByteArray_eq_iff.mp h)]
  rfl

theorem compileCell_eq (cell : Cell) : compiler.compileCell toolchain linker token cell host =
    ((compiler.compileText toolchain linker token cell.installed.text host).1,
      (compiler.compileText toolchain linker token cell.installed.text host).2, cell.rescan.2) := by
  rw [compileCell, Cell.rescan_eq]
  rfl

theorem handsOver {before after : List String} {written : Files}
    (harguments : compiler.settings.builder.arguments (compiler.names token) prepared.links =
      before ++ prepared.links.arguments ++ after)
    (h : Builder.writeSource (compiler.names token) prepared.source host.files = .ok written) :
    compiler.HandsOver token before after prepared host.files
      ⟨compiler.settings.program,
        compiler.settings.builder.arguments (compiler.names token) prepared.links, written⟩ where
  program := rfl
  arguments := harguments
  source := by
    have hread : written.read (compiler.names token).source =
        .ok (Utf8.encode prepared.source.code.toList) := Files.read_of_write h
    have hbytes : (Utf8.encode prepared.source.code.toList).toByteArray =
        prepared.source.code.toUTF8 := Utf8.toByteArray_eq_iff.mpr rfl
    rw [hread, ← hbytes]
    rfl
  changes := Files.changesOnly_write h

/-- Whatever compiler it is, its compilations prepare first and then build what was prepared. -/
theorem prepares_then_builds (compiler : Compiler) (token : Token) : ∃ before after,
    before ++ after = compiler.settings.builder.arguments (compiler.names token) {} ∧
    ∀ toolchain linker template host,
      compiler.PreparesThenBuilds token before after toolchain linker template host := by
  obtain ⟨before, after, hothers, harguments⟩ :=
    compiler.settings.builder.exists_arguments_eq (compiler.names token)
  refine ⟨before, after, hothers, fun toolchain linker template host => ?_⟩
  constructor
  · exact fun failure => compileText_of_prepareText_error
  · intro prepared h
    rw [generateSource, h]
    exact ⟨rfl, compileText_of_prepareText_ok h⟩
  · intro prepared e left h hwrite
    rw [compileText_of_prepareText_ok h]
    unfold finish
    rw [Builder.build_of_writeSource_error hwrite]
  · intro prepared written h hwrite
    refine ⟨_, handsOver (harguments prepared.links) hwrite, fun e hstart => ?_,
      fun done hstart => ?_, fun other hsame => ?_⟩
    · rw [compileText_of_prepareText_ok h, snd_finish]
      exact Builder.runs_build_of_start_error hwrite hstart
    · rw [compileText_of_prepareText_ok h, snd_finish]
      exact Builder.runs_build_of_start_ok hwrite hstart
    · have hbuild : compiler.settings.builder.build other (compiler.names token) prepared.links
          prepared.source host = compiler.settings.builder.build toolchain (compiler.names token)
            prepared.links prepared.source host := Builder.build_congr hwrite hsame
      rw [compileText_of_prepareText_ok h, compileText_of_prepareText_ok h]
      unfold finish
      rw [hbuild]
  · exact fun chunks => compileChunks_of_flatten
  · rintro cell rfl
    exact ⟨cell.rescan.2, by rw [Cell.rescan_eq], compileCell_eq cell⟩
  · intro chunks hinvalid
    rw [Utf8.isValidUTF8_iff] at hinvalid
    have hscan := Scanned.ofChunks_eq_error fun text htext => hinvalid ⟨text, htext⟩
    rw [compileChunks, hscan]

end Compiler

end TemplateViews
