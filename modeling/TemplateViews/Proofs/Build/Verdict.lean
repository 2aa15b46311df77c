import TemplateViews.Proofs.Build.Cleanup
import TemplateViews.Proofs.Build.Report

/-! How builds end. What a toolchain does decides between a library, errors and a failure of
the toolchain, and the noise in its report decides nothing. -/

namespace TemplateViews

/-- Some line of a report is an error, and does not only sum up others. -/
def WritesError (stderr : List UInt8) : Prop :=
  ∃ line ∈ linesOf (Utf8.decodeLossy stderr), ∃ m, CompilerMessage.ofLine? (trim line) = some m ∧
    m.isDiagnostic = true ∧ m.isSummary = false ∧ m.severity? = some .error

/-- What two runs do that differ at most in the noise between the lines they write. -/
inductive SameButNoise : Except SystemError Completion → Except SystemError Completion → Prop
  | refused (error : SystemError) : SameButNoise (.error error) (.error error)
  | ended (status : ExitStatus) (files : Files) {lines lines' : List (List UInt8)}
      (hlines : ∀ line ∈ lines, 0x0a ∉ line) (hlines' : ∀ line ∈ lines', 0x0a ∉ line)
      (hsame : (lines.filter fun line => !isNoise line) = lines'.filter fun line => !isNoise line) :
      SameButNoise (.ok ⟨status, [0x0a].intercalate lines, files⟩)
        (.ok ⟨status, [0x0a].intercalate lines', files⟩)

namespace Builder

/-- Results that differ at most in the diagnostics that come with them. -/
inductive SameKind : Except Failure Built → Except Failure Built → Prop
  | built (library : Path) (warnings warnings' : List Diagnostic) :
      SameKind (.ok ⟨library, warnings⟩) (.ok ⟨library, warnings'⟩)
  | rejected (errors errors' : List Diagnostic) :
      SameKind (.error (.rejected errors)) (.error (.rejected errors'))
  | failed (fault : ToolchainFault) :
      SameKind (.error (.toolchain fault)) (.error (.toolchain fault))

/-- How a build ends, as told by what the toolchain did. -/
structure Classified (names : BuildNames) (source : ViewSource)
    (run : Except SystemError Completion) (result : Except Failure Built) : Prop where
  built : (∃ built, result = .ok built) ↔ ∃ done, run = .ok done ∧
    done.status.isSuccess = true ∧ ¬ WritesError done.stderr ∧
    (done.files.discard names.source).holds names.library = true
  rejected : (∃ errors, result = .error (.rejected errors)) ↔ ∃ done, run = .ok done ∧
    (done.status.isSuccess = false ∨ WritesError done.stderr)
  errors : ∀ errors, result = .error (.rejected errors) → errors ≠ [] ∧
    (∀ d ∈ errors, d.isError = true) ∧ ∃ done, run = .ok done ∧
      (WritesError done.stderr → errors = writtenErrors source names.source done.stderr) ∧
      (¬ WritesError done.stderr →
        errors = [exitDiagnostic done.status (Utf8.decodeLossy done.stderr)])

section Verdict

variable {names : BuildNames} {source : ViewSource} {status : ExitStatus} {stderr : List UInt8}

theorem writtenErrors_ne_nil_iff (source : ViewSource) (file : Path) :
    writtenErrors source file stderr ≠ [] ↔ WritesError stderr := by
  constructor
  · intro hne
    obtain ⟨d, hd⟩ := List.exists_mem_of_ne_nil _ hne
    obtain ⟨herror, line, hline, hd⟩ := mem_writtenErrors.mp hd
    obtain ⟨m, hm, hd⟩ := lineDiagnostic?_eq_some_iff.mp hd
    obtain ⟨hdiagnostic, hsummary, hseverity, -⟩ := CompilerMessage.diagnostic?_eq_some_iff.mp hd
    rw [Diagnostic.isError, beq_iff_eq] at herror
    exact ⟨line, hline, m, hm, hdiagnostic, hsummary, by rw [hseverity, herror]⟩
  · rintro ⟨line, hline, m, hm, hdiagnostic, hsummary, hseverity⟩
    have hd : lineDiagnostic? source file line =
        some ⟨.error, m.message, m.code, m.span?.map (Span.position source file)⟩ :=
      lineDiagnostic?_eq_some_iff.mpr ⟨m, hm, CompilerMessage.diagnostic?_eq_some_iff.mpr
        ⟨hdiagnostic, hsummary, hseverity, rfl, rfl, rfl⟩⟩
    exact List.ne_nil_of_mem (mem_writtenErrors.mpr ⟨rfl, line, hline, hd⟩)

theorem writtenErrors_eq_nil_iff (source : ViewSource) (file : Path) :
    writtenErrors source file stderr = [] ↔ ¬ WritesError stderr := by
  rw [← writtenErrors_ne_nil_iff source file, not_not]

/-- The errors that refuse a build. -/
def refusals (names : BuildNames) (source : ViewSource) (status : ExitStatus)
    (stderr : List UInt8) : List Diagnostic :=
  if writtenErrors source names.source stderr = [] then
    [exitDiagnostic status (Utf8.decodeLossy stderr)]
  else writtenErrors source names.source stderr

theorem refusals_ne_nil : refusals names source status stderr ≠ [] := by
  unfold refusals
  split
  · exact List.cons_ne_nil _ _
  · assumption

theorem refusals_of_writesError (h : WritesError stderr) :
    refusals names source status stderr = writtenErrors source names.source stderr :=
  if_neg ((writtenErrors_ne_nil_iff _ _).mpr h)

theorem isError_of_mem_refusals {d : Diagnostic} (h : d ∈ refusals names source status stderr) :
    d.isError = true := by
  unfold refusals at h
  split at h
  · rw [List.mem_singleton.mp h]
    rfl
  · exact (mem_writtenErrors.mp h).1

theorem verdict_eq : verdict names source status stderr =
    if status.isSuccess = true ∧ writtenErrors source names.source stderr = [] then
      .ok ((readReport source names.source (Utf8.decodeLossy stderr)).filter fun d => !d.isError)
    else .error (refusals names source status stderr) := by
  unfold verdict refusals
  dsimp only
  rw [← writtenErrors]
  cases hsuccess : status.isSuccess with
  | false => by_cases herrors : writtenErrors source names.source stderr = [] <;> simp [herrors]
  | true => by_cases herrors : writtenErrors source names.source stderr = [] <;> simp [herrors]

/-- What a run that has ended leaves: a library, nothing to load, or errors. -/
inductive Ending (names : BuildNames) (source : ViewSource) (done : Completion) :
    Except Failure Built → Prop
  | built (hsuccess : done.status.isSuccess = true) (herror : ¬ WritesError done.stderr)
      (hholds : (done.files.discard names.source).holds names.library = true)
      (warnings : List Diagnostic) : Ending names source done (.ok ⟨names.library, warnings⟩)
  | noLibrary (hsuccess : done.status.isSuccess = true) (herror : ¬ WritesError done.stderr)
      (hholds : (done.files.discard names.source).holds names.library = false) :
      Ending names source done (.error (.toolchain (.noLibrary names.library)))
  | rejected (hfails : done.status.isSuccess = false ∨ WritesError done.stderr) :
      Ending names source done
        (.error (.rejected (refusals names source done.status done.stderr)))

theorem ending_settle (names : BuildNames) (source : ViewSource) (done : Completion) :
    Ending names source done (settle names (verdict names source done.status done.stderr)
      (done.files.discard names.source)).1 := by
  rw [verdict_eq]
  by_cases hpasses : done.status.isSuccess = true ∧
      writtenErrors source names.source done.stderr = []
  · rw [if_pos hpasses, settle]
    obtain ⟨hsuccess, herror⟩ := hpasses
    rw [writtenErrors_eq_nil_iff] at herror
    cases hholds : (done.files.discard names.source).holds names.library with
    | true => exact .built hsuccess herror hholds _
    | false => exact .noLibrary hsuccess herror hholds
  · rw [if_neg hpasses, settle]
    rw [writtenErrors_eq_nil_iff, not_and_or, not_not, Bool.not_eq_true] at hpasses
    exact .rejected hpasses

theorem Ending.classified {done : Completion} {result : Except Failure Built}
    (h : Ending names source done result) : Classified names source (.ok done) result := by
  cases h with
  | built hsuccess herror hholds warnings => constructor <;> simp [hsuccess, herror, hholds]
  | noLibrary hsuccess herror hholds => constructor <;> simp [hsuccess, herror, hholds]
  | rejected hfails =>
    refine ⟨?_, ?_, ?_⟩
    · refine iff_of_false (by simp) ?_
      rintro ⟨other, hother, hsuccess, herror, -⟩
      obtain rfl := Except.ok.inj hother
      rcases hfails with hfails | hwrites
      · exact absurd hsuccess (Bool.eq_false_iff.mp hfails)
      · exact herror hwrites
    · exact iff_of_true ⟨_, rfl⟩ ⟨done, rfl, hfails⟩
    · intro errors herrors
      obtain rfl := Failure.rejected.inj (Except.error.inj herrors)
      exact ⟨refusals_ne_nil, fun d => isError_of_mem_refusals, done, rfl, refusals_of_writesError,
        fun hnone => if_pos ((writtenErrors_eq_nil_iff _ _).mpr hnone)⟩

theorem Ending.sameKind {status : ExitStatus} {files : Files} {stderr stderr' : List UInt8}
    {result result' : Except Failure Built}
    (hsame : writtenErrors source names.source stderr = writtenErrors source names.source stderr')
    (h : Ending names source ⟨status, stderr, files⟩ result)
    (h' : Ending names source ⟨status, stderr', files⟩ result') :
    SameKind result result' ∧ (WritesError stderr → result' = result) := by
  have herror : WritesError stderr ↔ WritesError stderr' := by
    rw [← writtenErrors_ne_nil_iff source names.source, hsame, writtenErrors_ne_nil_iff]
  cases h with
  | built hsuccess hnone hholds warnings =>
    refine ⟨?_, fun hwrites => absurd hwrites hnone⟩
    -- both runs leave the same files, so neither or both have a library
    cases h' with
    | built => exact .built _ _ _
    | noLibrary _ _ hmissing => cases hholds.symm.trans hmissing
    | rejected hfails => simp [hsuccess, ← herror, hnone] at hfails
  | noLibrary hsuccess hnone hmissing =>
    refine ⟨?_, fun hwrites => absurd hwrites hnone⟩
    cases h' with
    | built _ _ hholds _ => cases hholds.symm.trans hmissing
    | noLibrary => exact .failed _
    | rejected hfails => simp [hsuccess, ← herror, hnone] at hfails
  | rejected hfails =>
    rw [herror] at hfails
    cases h' with
    | built hsuccess hnone _ _ => simp [hsuccess, hnone] at hfails
    | noLibrary hsuccess hnone _ => simp [hsuccess, hnone] at hfails
    | rejected =>
      refine ⟨.rejected _ _, fun hwrites => ?_⟩
      rw [refusals_of_writesError hwrites, refusals_of_writesError (herror.mp hwrites), hsame]

end Verdict

section Build

variable {builder : Builder} {toolchain toolchain' : Toolchain} {names : BuildNames}
  {links : Links} {source : ViewSource} {host : Host} {written : Files} {done : Completion}
  (hwrite : writeSource names source host.files = .ok written)

include hwrite

theorem build_notStarted {e : SystemError}
    (hstart : toolchain.start builder.program (builder.arguments names links) written = .error e) :
    (builder.build toolchain names links source host).1 =
      .error (.toolchain (.notStarted builder.program e)) := by
  simp only [build, hwrite, hstart]

theorem build_started
    (hstart : toolchain.start builder.program (builder.arguments names links) written = .ok done) :
    (builder.build toolchain names links source host).1 =
      (settle names (verdict names source done.status done.stderr)
        (done.files.discard names.source)).1 := by
  simp only [build, hwrite, hstart]

theorem classified_build : Classified names source
    (toolchain.start builder.program (builder.arguments names links) written)
    (builder.build toolchain names links source host).1 := by
  cases hstart : toolchain.start builder.program (builder.arguments names links) written with
  | error e =>
    rw [build_notStarted hwrite hstart]
    constructor <;> simp
  | ok done =>
    rw [build_started hwrite hstart]
    exact (ending_settle names source done).classified

theorem sameKind_build
    (hnoise : SameButNoise
      (toolchain.start builder.program (builder.arguments names links) written)
      (toolchain'.start builder.program (builder.arguments names links) written)) :
    SameKind (builder.build toolchain names links source host).1
        (builder.build toolchain' names links source host).1 ∧
      ∀ done, toolchain.start builder.program (builder.arguments names links) written = .ok done →
        WritesError done.stderr →
        (builder.build toolchain' names links source host).1 =
          (builder.build toolchain names links source host).1 := by
  generalize hstart : toolchain.start _ _ written = run at hnoise ⊢
  generalize hstart' : toolchain'.start _ _ written = run' at hnoise
  cases hnoise with
  | refused e =>
    rw [build_notStarted hwrite hstart, build_notStarted hwrite hstart']
    exact ⟨.failed _, fun done hdone => by cases hdone⟩
  | ended status files hlines hlines' hsame =>
    rw [build_started hwrite hstart, build_started hwrite hstart']
    obtain ⟨hkind, herrors⟩ := Ending.sameKind (writtenErrors_congr hlines hlines' hsame)
      (ending_settle names source _) (ending_settle names source _)
    refine ⟨hkind, fun done hdone hwrites => ?_⟩
    obtain rfl := Except.ok.inj hdone
    exact herrors hwrites

/-- A build whose source was written ends as the toolchain has it, and as another toolchain has
it that does the same and writes other noise. -/
theorem build_classified :
    Classified names source
      (toolchain.start builder.program (builder.arguments names links) written)
      (builder.build toolchain names links source host).1 ∧
    ∀ toolchain' : Toolchain, SameButNoise
        (toolchain.start builder.program (builder.arguments names links) written)
        (toolchain'.start builder.program (builder.arguments names links) written) →
      SameKind (builder.build toolchain names links source host).1
          (builder.build toolchain' names links source host).1 ∧
        ∀ done, toolchain.start builder.program (builder.arguments names links) written = .ok done →
          WritesError done.stderr →
          (builder.build toolchain' names links source host).1 =
            (builder.build toolchain names links source host).1 :=
  ⟨classified_build hwrite, fun _ hnoise => sameKind_build hwrite hnoise⟩

end Build

def scratchWritten : Files :=
  scratchHost.files.put [Utf8.encode "tmp".toList, Utf8.encode "view.rs".toList]
    (.file (Utf8.encode scratchSource.code.toList))

/-- A compiler that writes these lines and fails. -/
def complaining (lines : List String) : Toolchain where
  run _ _ files :=
    .ok ⟨.code 1, [0x0a].intercalate (lines.map fun line => Utf8.encode line.toList), files⟩

def errorLine : String := "\x7b\"message\": \"unclear\", \"level\": \"error\"\x7d"

def scratchBuilder : Builder := { program := ⟨"rustc"⟩ }

theorem build_classified_complaining :
    writeSource scratchNames scratchSource scratchHost.files = .ok scratchWritten ∧
    SameButNoise
      ((complaining [errorLine]).start scratchBuilder.program
        (scratchBuilder.arguments scratchNames {}) scratchWritten)
      ((complaining ["note", errorLine, ""]).start scratchBuilder.program
        (scratchBuilder.arguments scratchNames {}) scratchWritten) ∧
    Classified scratchNames scratchSource
      ((complaining [errorLine]).start scratchBuilder.program
        (scratchBuilder.arguments scratchNames {}) scratchWritten)
      (scratchBuilder.build (complaining [errorLine]) scratchNames {} scratchSource scratchHost).1 ∧
    SameKind
      (scratchBuilder.build (complaining [errorLine]) scratchNames {} scratchSource scratchHost).1
      (scratchBuilder.build (complaining ["note", errorLine, ""]) scratchNames {} scratchSource
        scratchHost).1 := by
  have hwrite : writeSource scratchNames scratchSource scratchHost.files = .ok scratchWritten := by
    decide +kernel
  have hnoise : SameButNoise
      ((complaining [errorLine]).start scratchBuilder.program
        (scratchBuilder.arguments scratchNames {}) scratchWritten)
      ((complaining ["note", errorLine, ""]).start scratchBuilder.program
        (scratchBuilder.arguments scratchNames {}) scratchWritten) := by
    have htaken : (hasNul scratchBuilder.program.text ||
        (scratchBuilder.arguments scratchNames {}).any hasNul) = false := by decide +kernel
    rw [Toolchain.start, Toolchain.start, htaken]
    exact .ended (.code 1) scratchWritten (by decide +kernel) (by decide +kernel)
      (by decide +kernel)
  exact ⟨hwrite, hnoise, (build_classified hwrite).1, ((build_classified hwrite).2 _ hnoise).1⟩

end Builder

end TemplateViews
