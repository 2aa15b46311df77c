import TemplateViews.Template.Declared

/-! A cell that holds the current text of a template and is shared by several
writers. Texts have identities: a writer may replace the installed text only if it
names the one that is installed, whatever the texts say. -/

namespace TemplateViews

structure Handle where
  id : Nat
  text : String
  deriving DecidableEq, Repr

structure Cell where
  installed : Handle
  issued : Nat
  deriving DecidableEq, Repr

namespace Cell

def ofText (text : String) : Cell := ⟨⟨0, text⟩, 1⟩

def issue (cell : Cell) (text : String) : Handle × Cell :=
  (⟨cell.issued, text⟩, { cell with issued := cell.issued + 1 })

/-- Installs a handle if the expected one is installed, and gives the one before it;
else gives the installed one. -/
def replaceIf (cell : Cell) (expected : Nat) (handle : Handle) :
    Except Handle Handle × Cell :=
  if cell.installed.id = expected then
    (.ok cell.installed, { cell with installed := handle })
  else (.error cell.installed, cell)

structure Rescan where
  handle : Handle
  declared : Declared
  deriving DecidableEq, Repr

/-- Scans the text that was read and tries to install a copy of it. -/
def attempt (cell : Cell) (read : Handle) : Except Handle Rescan × Cell :=
  let (copy, cell) := cell.issue read.text
  match cell.replaceIf read.id copy with
  | (.ok _, cell) => (.ok ⟨copy, Declared.ofText read.text⟩, cell)
  | (.error actual, cell) => (.error actual, cell)

theorem attempt_error {cell cell' : Cell} {read actual : Handle}
    (h : cell.attempt read = (.error actual, cell')) :
    cell.installed.id ≠ read.id ∧ cell'.installed = cell.installed ∧
      actual = cell.installed := by
  simp only [attempt, issue, replaceIf] at h
  by_cases hid : cell.installed.id = read.id
  · simp [hid] at h
  · simp only [hid, if_false, Prod.mk.injEq, Except.error.injEq] at h
    exact ⟨hid, by rw [← h.2], h.1.symm⟩

def rescanFrom (cell : Cell) (read : Handle) : Rescan × Cell :=
  match _h : cell.attempt read with
  | (.ok rescan, cell') => (rescan, cell')
  | (.error actual, cell') => rescanFrom cell' actual
termination_by if cell.installed.id = read.id then 0 else 1
decreasing_by
  obtain ⟨hid, hcell, hactual⟩ := attempt_error _h
  simp [hid, hcell, hactual]

/-- Scans the installed text in place: what is declared describes a text that was
installed when the scan ended. -/
def rescan (cell : Cell) : Rescan × Cell := cell.rescanFrom cell.installed

end Cell

end TemplateViews
