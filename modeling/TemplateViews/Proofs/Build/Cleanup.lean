import TemplateViews.Build.Builder
import TemplateViews.Build.Script
import TemplateViews.Proofs.Files.Changes

/-! What a build leaves behind. Whatever the toolchain does to the place of the library, the
source is gone afterwards, and the library is there if and only if it was built. Only a build
that cannot write all of its source leaves the part that was written. -/

namespace TemplateViews

namespace Builder

/-- Nothing is left of a build but the library it gives, and a build whose source cannot be
written runs nothing and changes nothing. -/
structure CleansUp (names : BuildNames) (source : ViewSource) (host : Host)
    (result : Except Failure Built) (after : Host) : Prop where
  sourceGone : after.files.holds names.source = false
  libraryKept : after.files.holds names.library = true ↔ ∃ built, result = .ok built
  othersSame : ∀ place, host.files.locate names.library ≠ .ok place →
    after.files.node? place = host.files.node? place
  unwritten : ∀ e left, writeSource names source host.files = .error (e, left) →
    result = .error (.system e) ∧ after = host

/-- How a build ends whose source cannot be written: nothing is run, and a front of the source
may be left at its path. -/
structure Unwritten (names : BuildNames) (source : ViewSource) (host : Host) (e : SystemError)
    (result : Except Failure Built) (after : Host) : Prop where
  refused : result = .error (.system e)
  nothingRun : after.runs = host.runs
  changes : host.files.ChangesOnly names.source after.files
  leftover : after = host ∨ ∃ front lost, lost ≠ [] ∧
    front ++ lost = Utf8.encode source.code.toList ∧ after.files.read names.source = .ok front

variable {names : BuildNames} {source : ViewSource} {before written done cleared : Files}

/-- Files as they are after the source was written, the toolchain ended and the source was
discarded again. -/
structure Cleared (names : BuildNames) (before written done cleared : Files) : Prop
    extends Files.SameDirectories before cleared where
  sourceGone : cleared.holds names.source = false
  kept : ∀ place, done.node? place = written.node? place →
    cleared.node? place = before.node? place

theorem cleared_discard (hfree : before.holds names.source = false)
    (hguarded : ∀ place, before.locate names.source = .ok place → place ∉ before.guarded)
    (hwritten : before.ChangesOnly names.source written) (hdone : written.SameDirectories done) :
    Cleared names before written done (done.discard names.source) := by
  have hsame := hwritten.toSameDirectories.trans hdone
  have hdiscard := Files.changesOnly_discard done names.source
  rw [Files.not_holds_iff] at hfree
  have hgone : (done.discard names.source).holds names.source = false := by
    refine Files.not_holds_discard (fun place hplace hdirectory => ?_) fun place hplace => ?_
    · rw [hsame.locate_iff] at hplace
      rw [hsame.directory, hfree place hplace] at hdirectory
      cases hdirectory
    · rw [hsame.locate_iff] at hplace
      rw [hsame.guarded]
      exact hguarded place hplace
  refine ⟨hsame.trans hdiscard.toSameDirectories, hgone, fun place hkept => ?_⟩
  -- the place of the source was free before, so it is as it was once the source is gone
  by_cases hplace : before.locate names.source = .ok place
  · rw [Files.not_holds_iff] at hgone
    rw [hfree place hplace,
      hgone place ((hsame.trans hdiscard.toSameDirectories).locate_iff.mpr hplace)]
  · rw [hdiscard.others place (mt hsame.locate_iff.mp hplace), hkept, hwritten.others place hplace]

/-- The library of a verdict that refuses it is discarded, and no other goes. -/
theorem settle_keeps {files : Files} (verdict : Except (List Diagnostic) (List Diagnostic))
    (hdirectory : ∀ place, files.locate names.library = .ok place →
      files.node? place ≠ some .directory)
    (hguarded : ∀ place, files.locate names.library = .ok place → place ∉ files.guarded) :
    files.ChangesOnly names.library (settle names verdict files).2 ∧
      (files.holds names.source = false →
        (settle names verdict files).2.holds names.source = false) ∧
      ((settle names verdict files).2.holds names.library = true ↔
        ∃ built, (settle names verdict files).1 = .ok built) := by
  have hsame := Files.ChangesOnly.refl names.library files
  cases verdict with
  | error errors =>
    refine ⟨Files.changesOnly_discard files names.library, Files.not_holds_discard_of_not_holds, ?_⟩
    simp [settle, Files.not_holds_discard hdirectory hguarded]
  | ok warnings =>
    cases hholds : files.holds names.library with
    | true => simp [settle, hholds, hsame]
    | false => simp [settle, hholds, hsame]

section Exits

variable {host : Host} (hsource : host.files.holds names.source = false)
  (hlibrary : host.files.holds names.library = false)
  (hdeletes : ∀ place ∈ host.files.guarded,
    host.files.locate names.source ≠ .ok place ∧ host.files.locate names.library ≠ .ok place)

theorem unwritten_of_error {e : SystemError} {left : Files}
    (hwrite : writeSource names source host.files = .error (e, left)) :
    Unwritten names source host e (.error (.system e)) { host with files := left } where
  refused := rfl
  nothingRun := rfl
  changes := Files.changesOnly_write_error hwrite
  leftover := (Files.read_of_write_error hwrite).imp_left fun hleft => by rw [hleft]

include hsource hlibrary

/-- A failed write is cleaned up after if and only if it left nothing. -/
theorem cleansUp_unwritten_iff {e : SystemError} {left : Files}
    (hwrite : writeSource names source host.files = .error (e, left)) :
    CleansUp names source host (.error (.system e)) { host with files := left } ↔
      left.holds names.source = false := by
  refine ⟨CleansUp.sourceGone, fun hgone => ?_⟩
  have hsame : left = host.files := by
    refine (Files.read_of_write_error hwrite).resolve_right ?_
    rintro ⟨front, lost, -, -, hread⟩
    exact absurd (Files.holds_of_read hread) (by simp [hgone])
  subst hsame
  exact {
    sourceGone := hsource
    libraryKept := by simp [hlibrary]
    othersSame := fun _ _ => rfl
    unwritten := fun other left hother => by
      cases hwrite.symm.trans hother
      exact ⟨rfl, rfl⟩ }

include hdeletes

theorem cleansUp_notStarted {failure : Failure}
    (hwrite : writeSource names source host.files = .ok written) :
    CleansUp names source host (.error failure)
      { host with files := written.discard names.source } := by
  have hcleared := cleared_discard hsource (fun place hplace hmem => (hdeletes place hmem).1 hplace)
    (Files.changesOnly_write hwrite) (.refl written)
  have hgone : (written.discard names.source).holds names.library = false := by
    refine Files.not_holds_iff.mpr fun place hplace => ?_
    rw [hcleared.kept place rfl]
    exact Files.not_holds_iff.mp hlibrary place (hcleared.locate_iff.mp hplace)
  exact {
    sourceGone := hcleared.sourceGone
    libraryKept := by simp [hgone]
    othersSame := fun place _ => hcleared.kept place rfl
    unwritten := fun e left he => by rw [hwrite] at he; cases he }

theorem cleansUp_settled (verdict : Except (List Diagnostic) (List Diagnostic)) {runs : List Run}
    (hwrite : writeSource names source host.files = .ok written)
    (hdone : written.ChangesOnly names.library done) :
    CleansUp names source host (settle names verdict (done.discard names.source)).1
      ⟨(settle names verdict (done.discard names.source)).2, runs⟩ := by
  have hwritten : host.files.ChangesOnly names.source written := Files.changesOnly_write hwrite
  have hcleared := cleared_discard hsource (fun place hplace hmem => (hdeletes place hmem).1 hplace)
    hwritten hdone.toSameDirectories
  have hdirectory : ∀ place, (done.discard names.source).locate names.library = .ok place →
      (done.discard names.source).node? place ≠ some .directory := by
    intro place hplace
    have hfree := Files.not_holds_iff.mp hlibrary place (hcleared.locate_iff.mp hplace)
    rw [Ne, hcleared.directory, hfree]
    exact fun h => by cases h
  have hguarded : ∀ place, (done.discard names.source).locate names.library = .ok place →
      place ∉ (done.discard names.source).guarded := by
    intro place hplace hmem
    rw [hcleared.guarded] at hmem
    exact (hdeletes place hmem).2 (hcleared.locate_iff.mp hplace)
  obtain ⟨hothers, hsourceGone, hlibraryKept⟩ := settle_keeps verdict hdirectory hguarded
  exact {
    sourceGone := hsourceGone hcleared.sourceGone
    libraryKept := hlibraryKept
    othersSame := fun place hplace => by
      have hbefore := mt hwritten.locate_iff.mp hplace
      have hafter := mt hcleared.locate_iff.mp hplace
      exact (hothers.others place hafter).trans (hcleared.kept place (hdone.others place hbefore))
    unwritten := fun e left he => by rw [hwrite] at he; cases he }

end Exits

theorem run_of_start {toolchain : Toolchain} {program : Path} {arguments : List String}
    {files : Files} {done : Completion}
    (h : toolchain.start program arguments files = .ok done) :
    toolchain.run program arguments files = .ok done := by
  unfold Toolchain.start at h
  split at h
  · cases h
  · exact h

/-- A build cleans up, however the toolchain fares, if and only if the system does not break off the
write of its source. What the toolchain puts anywhere has to be at most a file at the place of the
library, and the system has to delete what it is told to. -/
theorem build_cleansUp_iff {builder : Builder} {toolchain : Toolchain} {links : Links}
    {host : Host} (hsource : host.files.holds names.source = false)
    (hlibrary : host.files.holds names.library = false)
    (hdeletes : ∀ place ∈ host.files.guarded,
      host.files.locate names.source ≠ .ok place ∧ host.files.locate names.library ≠ .ok place)
    (htoolchain : ∀ files done,
      toolchain.run builder.program (builder.arguments names links) files = .ok done →
      files.ChangesOnly names.library done.files) :
    (∀ e left, writeSource names source host.files = .error (e, left) →
      Unwritten names source host e (builder.build toolchain names links source host).1
        (builder.build toolchain names links source host).2) ∧
    (CleansUp names source host (builder.build toolchain names links source host).1
        (builder.build toolchain names links source host).2 ↔
      ¬ host.files.BreaksOff names.source (Utf8.encode source.code.toList)) := by
  have hbreaksOff : host.files.BreaksOff names.source (Utf8.encode source.code.toList) ↔
      ∃ e left, writeSource names source host.files = .error (e, left) ∧
        left.holds names.source = true := Files.breaksOff_iff hsource
  rw [hbreaksOff]
  unfold build
  cases hwrite : writeSource names source host.files with
  | error failed =>
    obtain ⟨e, left⟩ := failed
    refine ⟨fun other files hother => ?_, ?_⟩
    · cases hother
      exact unwritten_of_error hwrite
    · rw [cleansUp_unwritten_iff hsource hlibrary hwrite]
      simp
  | ok written =>
    refine ⟨fun e left he => (by cases he), iff_of_true ?_ (by simp)⟩
    dsimp only
    cases hstart : toolchain.start builder.program (builder.arguments names links) written with
    | error e => exact cleansUp_notStarted hsource hlibrary hdeletes hwrite
    | ok done =>
      have hdone := htoolchain written done (run_of_start hstart)
      exact cleansUp_settled hsource hlibrary hdeletes _ hwrite hdone

/-- A product that is no directory changes its own place alone. -/
theorem changesOnly_put {product : Product} {p : Path} {files : Files}
    (hproduct : product ≠ .directory) : files.ChangesOnly p (Script.put product p files) := by
  cases product with
  | nothing => exact .refl p files
  | file content =>
    unfold Script.put
    dsimp only
    split
    · next hwrite => exact Files.changesOnly_write hwrite
    · next hwrite => exact Files.changesOnly_write_error hwrite
  | directory => exact absurd rfl hproduct

/-- A script that deletes nothing and makes no directory touches its output alone. -/
theorem changesOnly_of_script {script : Script} {program output : Path} {arguments : List String}
    {files : Files} {done : Completion} (hkeeps : script.keepsSource = true)
    (hproduct : script.product ≠ .directory) (houtput : Script.output? arguments = some output)
    (h : script.toolchain.run program arguments files = .ok done) :
    files.ChangesOnly output done.files := by
  unfold Script.toolchain at h
  dsimp only at h
  split at h
  · obtain rfl := Except.ok.inj h
    simp only [Script.perform, houtput, hkeeps, if_true]
    exact changesOnly_put hproduct
  · cases h

def scratchNames : BuildNames := ⟨"view", ⟨"/tmp/view.rs"⟩, ⟨"/tmp/view.so"⟩⟩

def scratchSource : ViewSource := ⟨"// view\n", [none], "View"⟩

def scratchHost : Host where
  files := { nodes := [([Utf8.encode "tmp".toList], .directory)] }

/-- A compiler that writes a library and fails. -/
def halfway : Script where
  program := ⟨"rustc"⟩
  product := .file [0x7f]
  stderr := [0x21]
  status := .code 1

def halfwayBuilder : Builder where
  program := halfway.program

def halfwayOutcome (host : Host) : Except Failure Built × Host :=
  halfwayBuilder.build halfway.toolchain scratchNames {} scratchSource host

theorem changesOnly_of_halfway (files : Files) (done : Completion)
    (h : halfway.toolchain.run halfwayBuilder.program
      (halfwayBuilder.arguments scratchNames {}) files = .ok done) :
    files.ChangesOnly scratchNames.library done.files :=
  changesOnly_of_script rfl (by decide) (by decide +kernel) h

theorem build_cleansUp_halfway :
    scratchHost.files.holds scratchNames.source = false ∧
    scratchHost.files.holds scratchNames.library = false ∧
    CleansUp scratchNames scratchSource scratchHost (halfwayOutcome scratchHost).1
      (halfwayOutcome scratchHost).2 := by
  have hsource : scratchHost.files.holds scratchNames.source = false := by decide +kernel
  have hlibrary : scratchHost.files.holds scratchNames.library = false := by decide +kernel
  have hwritten : ¬ scratchHost.files.BreaksOff scratchNames.source
      (Utf8.encode scratchSource.code.toList) := by
    rintro ⟨place, room, error, -, -, hshortage, -⟩
    cases hshortage
  exact ⟨hsource, hlibrary, (build_cleansUp_iff hsource hlibrary
    (fun _ h => absurd h List.not_mem_nil) changesOnly_of_halfway).2.mpr hwritten⟩

/-- A host whose storage is full after three bytes of the source. -/
def crampedHost : Host where
  files := { scratchHost.files with
    shortages := [([Utf8.encode "tmp".toList, Utf8.encode "view.rs".toList],
      ⟨some 3, .storageFull⟩)] }

/-- The build fails, and the three bytes stay. -/
theorem build_leaves_front_of_source :
    crampedHost.files.holds scratchNames.source = false ∧
    crampedHost.files.holds scratchNames.library = false ∧
    crampedHost.files.guarded = [] ∧
    (∀ files done, halfway.toolchain.run halfwayBuilder.program
      (halfwayBuilder.arguments scratchNames {}) files = .ok done →
      files.ChangesOnly scratchNames.library done.files) ∧
    (halfwayOutcome crampedHost).1 = .error (.system .storageFull) ∧
    (halfwayOutcome crampedHost).2.files.read scratchNames.source = .ok [0x2f, 0x2f, 0x20] ∧
    ¬ CleansUp scratchNames scratchSource crampedHost (halfwayOutcome crampedHost).1
      (halfwayOutcome crampedHost).2 := by
  have hread : (halfwayOutcome crampedHost).2.files.read scratchNames.source =
      .ok [0x2f, 0x2f, 0x20] := by decide +kernel
  refine ⟨by decide +kernel, by decide +kernel, rfl, changesOnly_of_halfway, by decide +kernel,
    hread, fun h => ?_⟩
  have hholds := Files.holds_of_read hread
  rw [h.sourceGone] at hholds
  cases hholds

end Builder

end TemplateViews
