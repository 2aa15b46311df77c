import TemplateViews.Config.Manifest
import TemplateViews.Failure

/-! Manifests in files. -/

namespace TemplateViews

/-- Reads a manifest; what it names relatively starts at the manifest's directory. -/
def Manifest.ofFile (files : Files) (p : Path) : Except Failure Manifest :=
  match files.readText p with
  | .error e => .error (.system e)
  | .ok text =>
    match Manifest.ofJson text with
    | .error e => .error (.config p (.json e))
    | .ok manifest => .ok (manifest.anchoredAt (p.parent?.getD ⟨"."⟩))

end TemplateViews
