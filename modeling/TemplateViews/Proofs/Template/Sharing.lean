import Mathlib.Data.List.Basic
import TemplateViews.Template.Cell

/-! A cell that clients and scans share. Clients read the installed text, make texts and try
to swap the ones they hold; a scan reads, copies and tries to install its copy until it
succeeds. All of them take their steps in any order. -/

namespace TemplateViews

namespace Cell

theorem replaceIf_eq_ok_iff {cell cell' : Cell} {expected : Nat} {handle previous : Handle} :
    cell.replaceIf expected handle = (.ok previous, cell') ↔
      cell.installed.id = expected ∧ cell.installed = previous ∧
      { cell with installed := handle } = cell' := by
  unfold replaceIf
  split
  · next hid => simp [hid]
  · next hid => simp [hid]

theorem replaceIf_eq_error_iff {cell cell' : Cell} {expected : Nat} {handle actual : Handle} :
    cell.replaceIf expected handle = (.error actual, cell') ↔
      cell.installed.id ≠ expected ∧ cell.installed = actual ∧ cell = cell' := by
  unfold replaceIf
  split
  · next hid => simp [hid]
  · next hid => simp [hid]

end Cell

/-- Where a scan in place stands. -/
inductive Scan
  | called
  | loaded (read : Handle)
  | scanned (read copy : Handle) (declared : Declared)
  | returned (result : Cell.Rescan)

def Scan.handles : Scan → List Handle
  | called => []
  | loaded read => [read]
  | scanned read copy _ => [read, copy]
  | returned result => [result.handle]

/-- What a scan says is declared is what the text it has copied declares. -/
def Scan.Describes : Scan → Prop
  | called => True
  | loaded _ => True
  | scanned read copy declared => copy.text = read.text ∧ declared = Declared.ofText copy.text
  | returned result => result.declared = Declared.ofText result.handle.text

/-- A cell with the scans that were called on it and the handles that clients hold. -/
structure Shared where
  cell : Cell
  scans : List Scan
  held : List Handle

namespace Shared

def ofText (text : String) : Shared := ⟨Cell.ofText text, [], [(Cell.ofText text).installed]⟩

def Has (s : Shared) (handle : Handle) : Prop :=
  handle = s.cell.installed ∨ handle ∈ s.held ∨ ∃ scan ∈ s.scans, handle ∈ scan.handles

inductive Event
  | load
  | make (text : String)
  /-- A client's swap that succeeded, and one that did not. -/
  | swap (expected handle : Handle)
  | refuse (expected handle : Handle)
  | call
  /-- The steps of the scan with a number. -/
  | read (scan : Nat)
  | copy (scan : Nat)
  | install (scan : Nat)
  | retry (scan : Nat)

inductive Step : Shared → Event → Shared → Prop
  | load (s : Shared) : Step s .load { s with held := s.cell.installed :: s.held }
  | make (s : Shared) (text : String) : Step s (.make text)
      { s with cell := (s.cell.issue text).2, held := (s.cell.issue text).1 :: s.held }
  | swap {s : Shared} {expected handle previous : Handle} {cell : Cell}
      (hexpected : expected ∈ s.held) (hhandle : handle ∈ s.held)
      (hswap : s.cell.replaceIf expected.id handle = (.ok previous, cell)) :
      Step s (.swap expected handle) { s with cell, held := previous :: s.held }
  | refuse {s : Shared} {expected handle actual : Handle} {cell : Cell}
      (hexpected : expected ∈ s.held) (hhandle : handle ∈ s.held)
      (hswap : s.cell.replaceIf expected.id handle = (.error actual, cell)) :
      Step s (.refuse expected handle) { s with cell, held := actual :: s.held }
  | call (s : Shared) : Step s .call { s with scans := s.scans ++ [.called] }
  | read {s : Shared} {i : Nat} (hscan : s.scans[i]? = some .called) :
      Step s (.read i) { s with scans := s.scans.set i (.loaded s.cell.installed) }
  | copy {s : Shared} {i : Nat} {read : Handle} (hscan : s.scans[i]? = some (.loaded read)) :
      Step s (.copy i)
        { s with
          cell := (s.cell.issue read.text).2
          scans := s.scans.set i
            (.scanned read (s.cell.issue read.text).1 (Declared.ofText read.text)) }
  | install {s : Shared} {i : Nat} {read copy previous : Handle} {declared : Declared}
      {cell : Cell} (hscan : s.scans[i]? = some (.scanned read copy declared))
      (hswap : s.cell.replaceIf read.id copy = (.ok previous, cell)) :
      Step s (.install i)
        ⟨cell, s.scans.set i (.returned ⟨copy, declared⟩), copy :: s.held⟩
  | retry {s : Shared} {i : Nat} {read copy actual : Handle} {declared : Declared}
      {cell : Cell} (hscan : s.scans[i]? = some (.scanned read copy declared))
      (hswap : s.cell.replaceIf read.id copy = (.error actual, cell)) :
      Step s (.retry i) { s with cell, scans := s.scans.set i (.loaded actual) }

inductive Steps : Shared → List Event → Shared → Prop
  | nil (s : Shared) : Steps s [] s
  | cons {s s' s'' : Shared} {e : Event} {events : List Event} (hstep : Step s e s')
      (h : Steps s' events s'') : Steps s (e :: events) s''

/-- The handle that a step compares with the installed one. -/
def expected? (s : Shared) : Event → Option Handle
  | .swap expected _ | .refuse expected _ => some expected
  | .install i | .retry i =>
    match s.scans[i]? with
    | some (.scanned read _ _) => some read
    | _ => none
  | _ => none

section Handles

variable {s s' : Shared} {e : Event} {scan new : Scan} {handle : Handle} {i : Nat}

theorem has_installed (s : Shared) : s.Has s.cell.installed := .inl rfl

theorem has_of_mem_held (h : handle ∈ s.held) : s.Has handle := .inr (.inl h)

theorem has_of_scan (hscan : s.scans[i]? = some scan) (h : handle ∈ scan.handles) :
    s.Has handle :=
  .inr (.inr ⟨scan, List.mem_of_getElem? hscan, h⟩)

theorem has_of_mem_scans (hscan : scan ∈ s.scans) (h : handle ∈ scan.handles) : s.Has handle :=
  .inr (.inr ⟨scan, hscan, h⟩)

theorem forall_has {P : Handle → Prop} (hinstalled : P s.cell.installed)
    (hheld : ∀ handle ∈ s.held, P handle)
    (hscans : ∀ scan ∈ s.scans, ∀ handle ∈ scan.handles, P handle) :
    ∀ handle, s.Has handle → P handle := by
  rintro handle (rfl | hhandle | ⟨scan, hscan, hhandle⟩)
  · exact hinstalled
  · exact hheld handle hhandle
  · exact hscans scan hscan handle hhandle

theorem forall_mem_set {P : Scan → Prop} {scans : List Scan} (hscans : ∀ scan ∈ scans, P scan)
    (hnew : P new) : ∀ scan ∈ scans.set i new, P scan := by
  intro scan hscan
  rcases List.mem_or_eq_of_mem_set hscan with hold | rfl
  · exact hscans scan hold
  · exact hnew

/-- A step makes at most one handle, with a number that was not issued before. -/
theorem Step.has_cases (h : Step s e s') :
    (s'.cell.issued = s.cell.issued ∧ ∀ handle, s'.Has handle → s.Has handle) ∨
    ∃ text, s'.cell.issued = s.cell.issued + 1 ∧
      ∀ handle, s'.Has handle → s.Has handle ∨ handle = ⟨s.cell.issued, text⟩ := by
  have hheld : ∀ handle ∈ s.held, s.Has handle := fun handle => has_of_mem_held
  have hscans : ∀ scan ∈ s.scans, ∀ handle ∈ scan.handles, s.Has handle :=
    fun scan hscan handle => has_of_mem_scans hscan
  cases h with
  | load =>
    exact .inl ⟨rfl, forall_has s.has_installed
      (List.forall_mem_cons.mpr ⟨s.has_installed, hheld⟩) hscans⟩
  | make text =>
    exact .inr ⟨text, rfl, forall_has (.inl s.has_installed)
      (List.forall_mem_cons.mpr ⟨.inr rfl, fun handle h => .inl (hheld handle h)⟩)
      fun scan hscan handle h => .inl (hscans scan hscan handle h)⟩
  | swap hexpected hhandle hswap =>
    obtain ⟨-, rfl, rfl⟩ := Cell.replaceIf_eq_ok_iff.mp hswap
    exact .inl ⟨rfl, forall_has (hheld _ hhandle)
      (List.forall_mem_cons.mpr ⟨s.has_installed, hheld⟩) hscans⟩
  | refuse hexpected hhandle hswap =>
    obtain ⟨-, rfl, rfl⟩ := Cell.replaceIf_eq_error_iff.mp hswap
    exact .inl ⟨rfl, forall_has s.has_installed
      (List.forall_mem_cons.mpr ⟨s.has_installed, hheld⟩) hscans⟩
  | call =>
    refine .inl ⟨rfl, forall_has s.has_installed hheld ?_⟩
    exact List.forall_mem_append.mpr ⟨hscans, by simp [Scan.handles]⟩
  | read hscan =>
    exact .inl ⟨rfl, forall_has s.has_installed hheld
      (forall_mem_set hscans (List.forall_mem_singleton.mpr s.has_installed))⟩
  | @copy i read hscan =>
    have hread : s.Has read := has_of_scan hscan (List.mem_singleton_self read)
    refine .inr ⟨read.text, rfl, forall_has (.inl s.has_installed)
      (fun handle h => .inl (hheld handle h)) (forall_mem_set ?_ ?_)⟩
    · exact fun scan hscan handle h => .inl (hscans scan hscan handle h)
    · exact List.forall_mem_cons.mpr ⟨.inl hread, List.forall_mem_singleton.mpr (.inr rfl)⟩
  | @install i read copy previous declared cell hscan hswap =>
    obtain ⟨-, rfl, rfl⟩ := Cell.replaceIf_eq_ok_iff.mp hswap
    have hcopy : s.Has copy := has_of_scan hscan (by simp [Scan.handles])
    exact .inl ⟨rfl, forall_has hcopy (List.forall_mem_cons.mpr ⟨hcopy, hheld⟩)
      (forall_mem_set hscans (List.forall_mem_singleton.mpr hcopy))⟩
  | retry hscan hswap =>
    obtain ⟨-, rfl, rfl⟩ := Cell.replaceIf_eq_error_iff.mp hswap
    exact .inl ⟨rfl, forall_has s.has_installed hheld
      (forall_mem_set hscans (List.forall_mem_singleton.mpr s.has_installed))⟩

end Handles

structure Identified (s : Shared) : Prop where
  issued : ∀ handle, s.Has handle → handle.id < s.cell.issued
  unique : ∀ handle other, s.Has handle → s.Has other → handle.id = other.id → handle = other

/-- Every handle has a number of its own, and scans describe what they copied. -/
structure Consistent (s : Shared) : Prop extends Identified s where
  describes : ∀ scan ∈ s.scans, scan.Describes

theorem consistent_ofText (text : String) : (ofText text).Consistent := by
  have hhas : ∀ handle, (ofText text).Has handle → handle = ⟨0, text⟩ :=
    forall_has rfl (List.forall_mem_singleton.mpr rfl) (List.forall_mem_nil _)
  refine { issued := fun handle h => ?_, unique := fun handle other h h' _ => ?_, describes := ?_ }
  · rw [hhas handle h]
    exact Nat.zero_lt_one
  · rw [hhas handle h, hhas other h']
  · exact List.forall_mem_nil _

section Steps

variable {s s' : Shared} {e : Event} {events : List Event}

theorem Step.identified (h : Step s e s') (hs : s.Identified) : s'.Identified := by
  rcases h.has_cases with ⟨hissued, hhas⟩ | ⟨text, hissued, hhas⟩
  · constructor
    · intro handle h
      rw [hissued]
      exact hs.issued handle (hhas handle h)
    · intro handle other h h'
      exact hs.unique handle other (hhas handle h) (hhas other h')
  · constructor
    · intro handle h
      rw [hissued]
      rcases hhas handle h with hold | rfl
      · exact Nat.lt_succ_of_lt (hs.issued handle hold)
      · exact Nat.lt_succ_self _
    · intro handle other h h' hid
      rcases hhas handle h with hold | rfl <;> rcases hhas other h' with hold' | rfl
      · exact hs.unique handle other hold hold' hid
      · exact absurd hid (Nat.ne_of_lt (hs.issued handle hold))
      · exact absurd hid.symm (Nat.ne_of_lt (hs.issued other hold'))
      · rfl

theorem Step.describes (h : Step s e s') (hs : ∀ scan ∈ s.scans, scan.Describes) :
    ∀ scan ∈ s'.scans, scan.Describes := by
  cases h with
  | load => exact hs
  | make text => exact hs
  | swap => exact hs
  | refuse => exact hs
  | call => exact List.forall_mem_append.mpr ⟨hs, List.forall_mem_singleton.mpr trivial⟩
  | read => exact forall_mem_set hs trivial
  | copy => exact forall_mem_set hs ⟨rfl, rfl⟩
  | install hscan => exact forall_mem_set hs (hs _ (List.mem_of_getElem? hscan)).2
  | retry => exact forall_mem_set hs trivial

theorem Step.consistent (h : Step s e s') (hs : s.Consistent) : s'.Consistent :=
  ⟨h.identified hs.toIdentified, h.describes hs.describes⟩

theorem Steps.consistent (h : Steps s events s') (hs : s.Consistent) : s'.Consistent := by
  induction h with
  | nil => exact hs
  | cons hstep _ ih => exact ih (hstep.consistent hs)

end Steps

end Shared

end TemplateViews
