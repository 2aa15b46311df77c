import TemplateViews.Proofs.Build.Leftovers
import TemplateViews.Proofs.Command.Stages
import TemplateViews.Proofs.Compiler.Concurrent
import TemplateViews.Proofs.Outcome

/-! Runs of the command. A run that prints a source does so without a trace, and the source is the
one that it would have built. A run that shows a view leaves the library of the view, and else
what the purge left that it was asked for. -/

namespace TemplateViews

/-- Files after a build that succeeded: its library is there, and its source is gone again. -/
structure BuildNames.Adds (names : BuildNames) (before after : Files) : Prop where
  base : after.base = before.base
  library : ∃ place content, before.locate names.library = .ok place ∧
    after.find names.library = .ok (place, .file content)
  source : ∀ place, before.locate names.source = .ok place → before.node? place = none →
    place ∉ before.guarded → after.node? place = none
  others : ∀ place, before.locate names.library ≠ .ok place →
    before.locate names.source ≠ .ok place → after.node? place = before.node? place

/-- The files after the purge that a run was asked for. -/
inductive Arguments.Purges (arguments : Arguments) (settings : Settings) (before : Files) :
    Files → Prop
  | unasked (h : arguments.has .purge = false) : arguments.Purges settings before before
  | asked {dir : Place} {after : Files} (h : arguments.has .purge = true)
      (hdir : before.find settings.scratchDir = .ok (dir, .directory))
      (hpurged : before.PurgedOf dir settings.stem after)
      (hguarded : after.guarded = before.guarded)
      (hkept : ∀ place ∈ before.guarded, after.node? place = before.node? place) :
    arguments.Purges settings before after

namespace Builder

variable {builder : Builder} {toolchain : Toolchain} {names : BuildNames} {links : Links}
  {source : ViewSource} {host after : Host} {built : Built}

end Builder

namespace Arguments

section Purge

variable {arguments : Arguments} {settings : Settings} {files cleaned : Files} {flag other : Flag}

end Purge

section Emission

variable {arguments : Arguments} {services : Services} {environment : Environment}
  {files cleaned : Files} {host : Host} {settings : Settings} {catalogue : Catalogue}
  {template : String} {prepared : Prepared} {run : Run}

end Emission

section Showing

variable {arguments : Arguments} {services : Services} {host : Host} {settings : Settings}
  {catalogue : Catalogue}

/-- What a run that showed a view left: the files that the purge left, and the library. -/
structure Shows (arguments : Arguments) (settings : Settings) (names : BuildNames)
    (before cleaned after : Files) (view : View) : Prop where
  purges : arguments.Purges settings before cleaned
  library : view.library = names.library
  adds : names.Adds cleaned after
  free : before.holds names.library = false → cleaned.holds names.library = false

end Showing

/-- A compiler that puts a library where it should be and has nothing to say. -/
def silent : Toolchain where
  run _ arguments files :=
    .ok ⟨.code 0, [], Script.put (.file [0x7f]) ((Script.output? arguments).getD ⟨""⟩) files⟩

end Arguments

end TemplateViews
