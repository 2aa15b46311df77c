import TemplateViews.Proofs.Template.Sharing

/-! No update of a shared cell is lost. In every order of steps the installed text says what
the last swap of a client installed, since a scan replaces a text by a copy of it. -/

namespace TemplateViews

theorem Cell.rescan_eq (cell : Cell) :
    cell.rescan = (⟨⟨cell.issued, cell.installed.text⟩, Declared.ofText cell.installed.text⟩,
      ⟨⟨cell.issued, cell.installed.text⟩, cell.issued + 1⟩) := by
  have hattempt : cell.attempt cell.installed =
      (.ok ⟨⟨cell.issued, cell.installed.text⟩, Declared.ofText cell.installed.text⟩,
        ⟨⟨cell.issued, cell.installed.text⟩, cell.issued + 1⟩) := by
    simp [attempt, issue, replaceIf]
  rw [rescan, rescanFrom]
  split
  · next rescan cell' h =>
    rw [hattempt] at h
    obtain ⟨rfl, rfl⟩ := by simpa using h
    rfl
  · next actual cell' h =>
    rw [hattempt] at h
    cases (Prod.mk.inj h).1

namespace Shared

/-- What the last swap of a client installed, or the text at the start. -/
def clientText (text : String) : List Event → String
  | [] => text
  | .swap _ handle :: events => clientText handle.text events
  | _ :: events => clientText text events

variable {s s' : Shared} {e : Event} {events : List Event} {text : String} {i : Nat}

theorem Step.text_of_install (h : Step s (.install i) s') (hs : s.Consistent) :
    s'.cell.installed.text = s.cell.installed.text := by
  cases h with
  | @install _ read copy previous declared cell hscan hswap =>
    obtain ⟨hid, -, rfl⟩ := Cell.replaceIf_eq_ok_iff.mp hswap
    have hread : s.Has read := has_of_scan hscan (by simp [Scan.handles])
    -- numbers tell handles apart, so the text that was read is the installed one
    have hcopy := hs.describes _ (List.mem_of_getElem? hscan)
    rw [hs.unique _ _ s.has_installed hread hid]
    exact hcopy.1

theorem Step.clientText (h : Step s e s') (hs : s.Consistent) (events : List Event) :
    clientText s.cell.installed.text (e :: events) = clientText s'.cell.installed.text events := by
  cases h with
  | load => rfl
  | make text => rfl
  | swap hexpected hhandle hswap =>
    obtain ⟨-, -, rfl⟩ := Cell.replaceIf_eq_ok_iff.mp hswap
    rfl
  | refuse hexpected hhandle hswap =>
    obtain ⟨-, -, rfl⟩ := Cell.replaceIf_eq_error_iff.mp hswap
    rfl
  | call => rfl
  | read hscan => rfl
  | copy hscan => rfl
  | install hscan hswap =>
    have htext := (Step.install hscan hswap).text_of_install hs
    rw [htext]
    rfl
  | retry hscan hswap =>
    obtain ⟨-, -, rfl⟩ := Cell.replaceIf_eq_error_iff.mp hswap
    rfl

theorem Steps.text_eq (h : Steps s events s') (hs : s.Consistent) :
    s'.cell.installed.text = Shared.clientText s.cell.installed.text events := by
  induction h with
  | nil => rfl
  | cons hstep _ ih => rw [ih (hstep.consistent hs), hstep.clientText hs]

theorem Step.cell_of_ne {expected : Handle} (h : Step s e s') (he : s.expected? e = some expected)
    (hne : expected.id ≠ s.cell.installed.id) : s'.cell = s.cell := by
  cases h with
  | load => cases he
  | make text => cases he
  | swap hexpected hhandle hswap =>
    obtain rfl := Option.some.inj he
    exact absurd (Cell.replaceIf_eq_ok_iff.mp hswap).1.symm hne
  | refuse hexpected hhandle hswap => exact (Cell.replaceIf_eq_error_iff.mp hswap).2.2.symm
  | call => cases he
  | read hscan => cases he
  | copy hscan => cases he
  | install hscan hswap =>
    obtain rfl : _ = expected := by simpa [expected?, hscan] using he
    exact absurd (Cell.replaceIf_eq_ok_iff.mp hswap).1.symm hne
  | retry hscan hswap => exact (Cell.replaceIf_eq_error_iff.mp hswap).2.2.symm

theorem getElem?_set_eq_some {scans : List Scan} {j : Nat} {scan new : Scan}
    (h : (scans.set i new)[j]? = some scan) : scans[j]? = some scan ∨ i = j ∧ scan = new := by
  rw [List.getElem?_set] at h
  split at h
  · next hij =>
    split at h
    · exact .inr ⟨hij, (Option.some.inj h).symm⟩
    · cases h
  · exact .inl h

theorem Step.returned_cases {result : Cell.Rescan} (h : Step s e s')
    (hreturned : s'.scans[i]? = some (.returned result)) :
    s.scans[i]? = some (.returned result) ∨
      e = .install i ∧ s'.cell.installed = result.handle := by
  cases h with
  | load => exact .inl hreturned
  | make text => exact .inl hreturned
  | swap => exact .inl hreturned
  | refuse => exact .inl hreturned
  | call =>
    refine .inl ?_
    rw [List.getElem?_append] at hreturned
    split at hreturned
    · exact hreturned
    · cases List.mem_singleton.mp (List.mem_of_getElem? hreturned)
  | read hscan =>
    rcases getElem?_set_eq_some hreturned with hold | ⟨-, hnew⟩
    · exact .inl hold
    · cases hnew
  | copy hscan =>
    rcases getElem?_set_eq_some hreturned with hold | ⟨-, hnew⟩
    · exact .inl hold
    · cases hnew
  | install hscan hswap =>
    rcases getElem?_set_eq_some hreturned with hold | ⟨rfl, hnew⟩
    · exact .inl hold
    · cases hnew
      obtain ⟨-, -, rfl⟩ := Cell.replaceIf_eq_ok_iff.mp hswap
      exact .inr ⟨rfl, rfl⟩
  | retry hscan hswap =>
    rcases getElem?_set_eq_some hreturned with hold | ⟨-, hnew⟩
    · exact .inl hold
    · cases hnew

/-- The moment at which a scan that returned had installed its copy. -/
theorem Steps.exists_install {result : Cell.Rescan} (h : Steps s events s')
    (hstart : s.scans[i]? ≠ some (.returned result))
    (hreturned : s'.scans[i]? = some (.returned result)) :
    ∃ before after s₁ s₂, events = before ++ .install i :: after ∧ Steps s before s₁ ∧
      Step s₁ (.install i) s₂ ∧ Steps s₂ after s' ∧ s₂.cell.installed = result.handle := by
  induction h with
  | nil => exact absurd hreturned hstart
  | @cons s t s' e events hstep hsteps ih =>
    -- either this step installs the copy, or the scan had not returned after it
    by_cases hnext : t.scans[i]? = some (.returned result)
    · rcases hstep.returned_cases hnext with hold | ⟨rfl, hinstalled⟩
      · exact absurd hold hstart
      · exact ⟨[], events, s, t, rfl, .nil s, hstep, hsteps, hinstalled⟩
    · obtain ⟨before, after, s₁, s₂, rfl, hbefore, hinstall, hafter, hinstalled⟩ :=
        ih hnext hreturned
      exact ⟨e :: before, after, s₁, s₂, rfl, .cons hstep hbefore, hinstall, hafter, hinstalled⟩

/-- A scan that nobody interrupts rescans the cell. -/
theorem steps_rescan (h : s.scans[i]? = some .called) :
    ∃ s', Steps s [.read i, .copy i, .install i] s' ∧ s'.cell = s.cell.rescan.2 ∧
      s'.scans[i]? = some (.returned s.cell.rescan.1) := by
  obtain ⟨hi, -⟩ := List.getElem?_eq_some_iff.mp h
  let loaded : Shared := { s with scans := s.scans.set i (.loaded s.cell.installed) }
  let copied : Shared :=
    { loaded with
      cell := (s.cell.issue s.cell.installed.text).2
      scans := loaded.scans.set i (.scanned s.cell.installed
        (s.cell.issue s.cell.installed.text).1 (Declared.ofText s.cell.installed.text)) }
  have hread : Step s (.read i) loaded := .read h
  have hcopy : Step loaded (.copy i) copied := .copy (List.getElem?_set_self hi)
  have hswap : copied.cell.replaceIf s.cell.installed.id
      (s.cell.issue s.cell.installed.text).1 = (.ok s.cell.installed, s.cell.rescan.2) := by
    rw [Cell.rescan_eq]
    exact Cell.replaceIf_eq_ok_iff.mpr ⟨rfl, rfl, rfl⟩
  have hinstall := Step.install (s := copied)
    (List.getElem?_set_self (by simpa [loaded] using hi)) hswap
  refine ⟨_, .cons hread (.cons hcopy (.cons hinstall (.nil _))), rfl, ?_⟩
  rw [Cell.rescan_eq]
  exact List.getElem?_set_self (by simpa [loaded, copied] using hi)

structure KeepsUpdates (text : String) (events : List Event) (s : Shared) : Prop where
  content : s.cell.installed.text = clientText text events
  copies : ∀ i s', Step s (.install i) s' → s'.cell.installed.text = s.cell.installed.text
  refused : ∀ e s' expected, Step s e s' → s.expected? e = some expected →
    expected.id ≠ s.cell.installed.id → s'.cell = s.cell
  returned : ∀ i result, s.scans[i]? = some (.returned result) →
    ∃ before after s₁ s₂, events = before ++ .install i :: after ∧ Steps (ofText text) before s₁ ∧
      Step s₁ (.install i) s₂ ∧ Steps s₂ after s ∧ s₂.cell.installed = result.handle ∧
      s₁.cell.installed.text = result.handle.text ∧
      result.declared = Declared.ofText result.handle.text
  alone : ∀ i, s.scans[i]? = some .called →
    ∃ s', Steps s [.read i, .copy i, .install i] s' ∧ s'.cell = s.cell.rescan.2 ∧
      s'.scans[i]? = some (.returned s.cell.rescan.1)

theorem keepsUpdates_of_steps (h : Steps (ofText text) events s) : KeepsUpdates text events s := by
  have hstart := consistent_ofText text
  have hs := h.consistent hstart
  exact {
    content := h.text_eq hstart
    copies := fun i s' hstep => hstep.text_of_install hs
    refused := fun e s' expected hstep => hstep.cell_of_ne
    returned := fun i result hreturned => by
      obtain ⟨before, after, s₁, s₂, hevents, hbefore, hinstall, hafter, hinstalled⟩ :=
        h.exists_install (by simp [ofText]) hreturned
      have htext := hinstall.text_of_install (hbefore.consistent hstart)
      rw [hinstalled] at htext
      exact ⟨before, after, s₁, s₂, hevents, hbefore, hinstall, hafter, hinstalled, htext.symm,
        hs.describes _ (List.mem_of_getElem? hreturned)⟩
    alone := fun i => steps_rescan }

/-- A scan whose text is replaced under it, and whose next text is replaced and put back. -/
def overtaken : List Event :=
  [.call, .read 0, .copy 0, .make "@model B", .swap ⟨0, "@model A"⟩ ⟨2, "@model B"⟩, .retry 0,
    .copy 0, .swap ⟨2, "@model B"⟩ ⟨0, "@model A"⟩, .swap ⟨0, "@model A"⟩ ⟨2, "@model B"⟩,
    .install 0]

def afterOvertaken : Shared where
  cell := ⟨⟨3, "@model B"⟩, 4⟩
  scans := [.returned ⟨⟨3, "@model B"⟩, Declared.ofText "@model B"⟩]
  held := [⟨3, "@model B"⟩, ⟨0, "@model A"⟩, ⟨2, "@model B"⟩, ⟨0, "@model A"⟩, ⟨2, "@model B"⟩,
    ⟨0, "@model A"⟩]

theorem steps_overtaken : Steps (ofText "@model A") overtaken afterOvertaken :=
  .cons (.call _) <| .cons (.read rfl) <| .cons (.copy rfl) <| .cons (.make _ _) <|
  .cons (.swap (by decide) (by decide) rfl) <| .cons (.retry rfl rfl) <| .cons (.copy rfl) <|
  .cons (.swap (by decide) (by decide) rfl) <| .cons (.swap (by decide) (by decide) rfl) <|
  .cons (.install rfl rfl) <| .nil _

theorem keepsUpdates_overtaken :
    Steps (ofText "@model A") overtaken afterOvertaken ∧
      KeepsUpdates "@model A" overtaken afterOvertaken :=
  ⟨steps_overtaken, keepsUpdates_of_steps steps_overtaken⟩

end Shared

end TemplateViews
