import Mathlib.Data.Nat.Count
import Mathlib.Data.Set.Card
import Mathlib.Data.Set.Finite.Lattice
import TemplateViews.Proofs.Template.Sharing

/-! The attempts of a scan on a shared cell. An attempt fails only if a swap came between it and
the read before it, so each failure is paid for by a swap of a client or of another scan. -/

namespace TemplateViews

/-- The handle that a scan compares with the installed one when it tries to install its copy. -/
def Scan.read? : Scan → Option Handle
  | loaded read => some read
  | scanned read _ _ => some read
  | _ => none

namespace Shared

namespace Event

def stepOf? : Event → Option Nat
  | read i | copy i | install i | retry i => some i
  | _ => none

def isRetry (i : Nat) : Event → Bool
  | retry j => j == i
  | _ => false

def isAttempt (i : Nat) : Event → Bool
  | install j | retry j => j == i
  | _ => false

/-- A swap that succeeds and is not the scan's own. -/
def swapsBeside (i : Nat) : Event → Bool
  | swap _ _ => true
  | install j => j != i
  | _ => false

end Event

/-- Another handle is installed than the one that the scan read. -/
def Outdated (s : Shared) (i : Nat) : Prop :=
  ∃ scan read, s.scans[i]? = some scan ∧ scan.read? = some read ∧ read.id ≠ s.cell.installed.id

/-- What a step is for one scan. -/
inductive Course (s : Shared) (i : Nat) : Event → Shared → Prop
  | stays {e : Event} {s' : Shared} (hother : e.stepOf? ≠ some i)
      (hscan : s'.scans[i]? = s.scans[i]?)
      (hswap : e.swapsBeside i = true ∨ s'.cell.installed = s.cell.installed) : Course s i e s'
  | called {s' : Shared} (hscan : s.scans[i]? = none) (hnext : s'.scans[i]? = some .called) :
      Course s i .call s'
  | read {s' : Shared} (hscan : s.scans[i]? = some .called)
      (hnext : s'.scans[i]? = some (.loaded s'.cell.installed)) : Course s i (.read i) s'
  | copy {s' : Shared} {read copy : Handle} {declared : Declared}
      (hscan : s.scans[i]? = some (.loaded read))
      (hnext : s'.scans[i]? = some (.scanned read copy declared))
      (hinstalled : s'.cell.installed = s.cell.installed) : Course s i (.copy i) s'
  | install {s' : Shared} {read copy : Handle} {declared : Declared}
      (hscan : s.scans[i]? = some (.scanned read copy declared))
      (hid : read.id = s.cell.installed.id)
      (hnext : s'.scans[i]? = some (.returned ⟨copy, declared⟩)) : Course s i (.install i) s'
  | retry {s' : Shared} {read copy : Handle} {declared : Declared}
      (hscan : s.scans[i]? = some (.scanned read copy declared))
      (hid : read.id ≠ s.cell.installed.id)
      (hnext : s'.scans[i]? = some (.loaded s'.cell.installed)) : Course s i (.retry i) s'

section Course

variable {s s' : Shared} {e : Event}

theorem getElem?_set_of_getElem? {scans : List Scan} {i : Nat} {old : Scan}
    (h : scans[i]? = some old) (new : Scan) : (scans.set i new)[i]? = some new := by
  have hlt := (List.getElem?_eq_some_iff.mp h).1
  exact List.getElem?_set_self hlt

theorem Step.course (h : Step s e s') (i : Nat) : Course s i e s' := by
  cases h with
  | load => exact .stays nofun rfl (.inr rfl)
  | make text => exact .stays nofun rfl (.inr rfl)
  | swap => exact .stays nofun rfl (.inl rfl)
  | refuse hexpected hhandle hswap =>
    obtain ⟨-, -, rfl⟩ := Cell.replaceIf_eq_error_iff.mp hswap
    exact .stays nofun rfl (.inr rfl)
  | call =>
    by_cases hi : i = s.scans.length
    · subst hi
      exact .called (by simp) (by simp)
    · refine .stays nofun ?_ (.inr rfl)
      rw [List.getElem?_append]
      split
      · rfl
      · rw [List.getElem?_eq_none (by simpa using by omega), List.getElem?_eq_none (by omega)]
  | @read j hscan =>
    by_cases hij : j = i
    · subst hij
      exact .read hscan (getElem?_set_of_getElem? hscan _)
    · exact .stays (by simpa [Event.stepOf?] using hij) (List.getElem?_set_ne hij) (.inr rfl)
  | @copy j read hscan =>
    by_cases hij : j = i
    · subst hij
      exact .copy hscan (getElem?_set_of_getElem? hscan _) rfl
    · exact .stays (by simpa [Event.stepOf?] using hij) (List.getElem?_set_ne hij) (.inr rfl)
  | @install j read copy previous declared cell hscan hswap =>
    by_cases hij : j = i
    · subst hij
      have hid := (Cell.replaceIf_eq_ok_iff.mp hswap).1
      exact .install hscan hid.symm (getElem?_set_of_getElem? hscan _)
    · have hbeside : (Event.install j).swapsBeside i = true := bne_iff_ne.mpr hij
      exact .stays (by simpa [Event.stepOf?] using hij) (List.getElem?_set_ne hij) (.inl hbeside)
  | @retry j read copy actual declared cell hscan hswap =>
    obtain ⟨hid, rfl, rfl⟩ := Cell.replaceIf_eq_error_iff.mp hswap
    by_cases hij : j = i
    · subst hij
      exact .retry hscan (Ne.symm hid) (getElem?_set_of_getElem? hscan _)
    · exact .stays (by simpa [Event.stepOf?] using hij) (List.getElem?_set_ne hij) (.inr rfl)

end Course

/-- Failed attempts charged to swaps; while the scan is outdated one swap is left over. -/
structure Charged (s : Shared) (i failures swaps : Nat) : Prop where
  le : failures ≤ swaps
  lt : s.Outdated i → failures < swaps

section Charged

variable {s s' : Shared} {e : Event} {events : List Event} {i failures swaps : Nat}

theorem not_outdated {scan : Scan} (hscan : s.scans[i]? = some scan)
    (h : ∀ read ∈ scan.read?, read = s.cell.installed) : ¬ s.Outdated i := by
  rintro ⟨other, read, hother, hread, hid⟩
  obtain rfl := Option.some.inj (hscan.symm.trans hother)
  exact hid (congrArg Handle.id (h read hread))

theorem not_outdated_loaded (h : s.scans[i]? = some (.loaded s.cell.installed)) :
    ¬ s.Outdated i :=
  not_outdated h fun _ hread => (Option.some.inj hread).symm

/-- A failure uses up the swap that outdated the scan, and nothing else outdates it. -/
theorem Charged.step (h : Charged s i failures swaps) (hstep : Step s e s') :
    Charged s' i (failures + if e.isRetry i then 1 else 0)
      (swaps + if e.swapsBeside i then 1 else 0) := by
  have hle := h.le
  have hcalm (hnot : ¬ s'.Outdated i) (hretry : e.isRetry i = false) :
      Charged s' i (failures + if e.isRetry i then 1 else 0)
        (swaps + if e.swapsBeside i then 1 else 0) := by
    rw [hretry]
    exact ⟨by simp; omega, fun hout => absurd hout hnot⟩
  cases hstep.course i with
  | stays hother hscan hswap =>
    have hretry : e.isRetry i = false := by
      cases e with
      | retry j => exact beq_eq_false_iff_ne.mpr fun hij => hother (congrArg some hij)
      | _ => rfl
    rw [hretry]
    by_cases hbeside : e.swapsBeside i = true
    · rw [hbeside]
      exact ⟨by simp; omega, fun _ => by simp; omega⟩
    · have hinstalled := hswap.resolve_left hbeside
      have hout : s'.Outdated i → s.Outdated i := by
        rw [Outdated, Outdated, hscan, hinstalled]
        exact id
      exact ⟨by simp; omega, fun h' => by simpa [hbeside] using h.lt (hout h')⟩
  | called hscan hnext => exact hcalm (not_outdated hnext nofun) rfl
  | read hscan hnext => exact hcalm (not_outdated_loaded hnext) rfl
  | @copy _ read copy declared hscan hnext hinstalled =>
    have hout : s'.Outdated i → s.Outdated i := by
      rintro ⟨scan, read', hscan', hread, hid⟩
      obtain rfl := Option.some.inj (hnext.symm.trans hscan')
      obtain rfl := Option.some.inj hread
      exact ⟨_, _, hscan, rfl, hinstalled ▸ hid⟩
    exact ⟨hle, fun h' => h.lt (hout h')⟩
  | install hscan hid hnext => exact hcalm (not_outdated hnext nofun) rfl
  | @retry _ read copy declared hscan hid hnext =>
    have hlt := h.lt ⟨_, read, hscan, rfl, hid⟩
    have hretry : (Event.retry i).isRetry i = true := beq_self_eq_true i
    rw [hretry]
    exact ⟨by simp; omega, fun hout => absurd hout (not_outdated_loaded hnext)⟩

theorem Charged.steps (h : Charged s i failures swaps) (hsteps : Steps s events s') :
    Charged s' i (failures + events.countP (Event.isRetry i))
      (swaps + events.countP (Event.swapsBeside i)) := by
  induction hsteps generalizing failures swaps with
  | nil => exact h
  | @cons s t s' e events hstep _ ih =>
    have hnext := ih (h.step hstep)
    rw [List.countP_cons, List.countP_cons]
    rwa [Nat.add_comm (events.countP (Event.isRetry i)), ← Nat.add_assoc,
      Nat.add_comm (events.countP (Event.swapsBeside i)), ← Nat.add_assoc]

theorem exists_steps_of_append {more : List Event} {s'' : Shared}
    (h : Steps s (events ++ more) s'') : ∃ s', Steps s events s' ∧ Steps s' more s'' := by
  induction events generalizing s with
  | nil => exact ⟨s, .nil s, h⟩
  | cons e events ih =>
    cases h with
    | cons hstep hrest =>
      obtain ⟨s', hevents, hmore⟩ := ih hrest
      exact ⟨s', .cons hstep hevents, hmore⟩

/-- From the moment of its load on, what a scan fails is charged to swaps since then. -/
theorem charged_since_read {before during : List Event}
    (h : Steps s (before ++ .read i :: during) s') :
    Charged s' i (during.countP (Event.isRetry i)) (during.countP (Event.swapsBeside i)) := by
  obtain ⟨s₁, -, hrest⟩ := exists_steps_of_append h
  cases hrest with
  | @cons _ t _ _ _ hstep hduring =>
    have hfresh : ¬ t.Outdated i := by
      cases hstep.course i with
      | stays hother => exact absurd rfl hother
      | read hscan hnext => exact not_outdated_loaded hnext
    have hstart : Charged t i 0 0 := ⟨le_rfl, fun hout => absurd hout hfresh⟩
    simpa using hstart.steps hduring

end Charged

section Calls

variable {s s' : Shared} {events : List Event} {i : Nat} {result : Cell.Rescan}

theorem Course.of_returned {e : Event} (h : Course s i e s')
    (hreturned : s.scans[i]? = some (.returned result)) :
    e.stepOf? ≠ some i ∧ s'.scans[i]? = some (.returned result) := by
  cases h with
  | stays hother hscan => exact ⟨hother, hscan.trans hreturned⟩
  | called hscan | read hscan | copy hscan | install hscan | retry hscan =>
    cases hscan.symm.trans hreturned

theorem Steps.quiet_of_returned (h : Steps s events s')
    (hreturned : s.scans[i]? = some (.returned result)) : ∀ e ∈ events, e.stepOf? ≠ some i := by
  induction h with
  | nil => exact List.forall_mem_nil _
  | cons hstep _ ih =>
    obtain ⟨hother, hnext⟩ := (hstep.course i).of_returned hreturned
    exact List.forall_mem_cons.mpr ⟨hother, ih hnext⟩

theorem Steps.exists_install_of_read {scan : Scan} {read : Handle} (h : Steps s events s')
    (hscan : s.scans[i]? = some scan) (hread : scan.read? = some read)
    (hreturned : s'.scans[i]? = some (.returned result)) :
    ∃ during after, events = during ++ .install i :: after ∧
      (∀ e ∈ during, e ≠ .read i ∧ e ≠ .install i) ∧ ∀ e ∈ after, e.stepOf? ≠ some i := by
  induction h generalizing scan read with
  | nil =>
    obtain rfl := Option.some.inj (hscan.symm.trans hreturned)
    cases hread
  | @cons s t s' e events hstep hsteps ih =>
    -- the step is part of the course up to the install, unless it is the install
    have hgoes {next : Scan} {other : Handle} (hnext : t.scans[i]? = some next)
        (hother : next.read? = some other) (he : e ≠ .read i ∧ e ≠ .install i) :
        ∃ during after, e :: events = during ++ .install i :: after ∧
          (∀ e ∈ during, e ≠ .read i ∧ e ≠ .install i) ∧ ∀ e ∈ after, e.stepOf? ≠ some i := by
      obtain ⟨during, after, rfl, hduring, hafter⟩ := ih hnext hother hreturned
      exact ⟨e :: during, after, rfl, List.forall_mem_cons.mpr ⟨he, hduring⟩, hafter⟩
    cases hstep.course i with
    | stays hother hsame =>
      refine hgoes (hsame.trans hscan) hread ⟨?_, ?_⟩
      · rintro rfl
        exact hother rfl
      · rintro rfl
        exact hother rfl
    | called hnone => cases hnone.symm.trans hscan
    | read hcalled =>
      obtain rfl := Option.some.inj (hcalled.symm.trans hscan)
      cases hread
    | copy hloaded hnext => exact hgoes hnext rfl ⟨nofun, nofun⟩
    | install hscanned hid hnext =>
      exact ⟨[], events, rfl, List.forall_mem_nil _, hsteps.quiet_of_returned hnext⟩
    | retry hscanned hid hnext => exact hgoes hnext rfl ⟨nofun, nofun⟩

/-- A scan that returned was called, read once, and installed once behind that. -/
theorem Steps.exists_read (h : Steps s events s')
    (hstart : s.scans[i]? = none ∨ s.scans[i]? = some .called)
    (hreturned : s'.scans[i]? = some (.returned result)) :
    ∃ before during after, events = before ++ .read i :: (during ++ .install i :: after) ∧
      (∀ e ∈ before ++ after, e.stepOf? ≠ some i) ∧
      ∀ e ∈ during, e ≠ .read i ∧ e ≠ .install i := by
  induction h with
  | nil => rcases hstart with hnone | hcalled <;> simp_all
  | @cons s t s' e events hstep hsteps ih =>
    have hwaits (hnext : t.scans[i]? = none ∨ t.scans[i]? = some .called)
        (he : e.stepOf? ≠ some i) :
        ∃ before during after, e :: events = before ++ .read i :: (during ++ .install i :: after) ∧
          (∀ e ∈ before ++ after, e.stepOf? ≠ some i) ∧
          ∀ e ∈ during, e ≠ .read i ∧ e ≠ .install i := by
      obtain ⟨before, during, after, rfl, hquiet, hduring⟩ := ih hnext hreturned
      exact ⟨e :: before, during, after, rfl, List.forall_mem_cons.mpr ⟨he, hquiet⟩, hduring⟩
    have hidle {scan : Scan} {read : Handle} (hscan : s.scans[i]? = some scan)
        (hread : scan.read? = some read) : False := by
      rcases hstart with hnone | hcalled
      · cases hnone.symm.trans hscan
      · obtain rfl := Option.some.inj (hcalled.symm.trans hscan)
        cases hread
    cases hstep.course i with
    | stays hother hsame => exact hwaits (hsame ▸ hstart) hother
    | called hnone hnext => exact hwaits (.inr hnext) nofun
    | read hcalled hnext =>
      obtain ⟨during, after, rfl, hduring, hafter⟩ :=
        hsteps.exists_install_of_read hnext rfl hreturned
      exact ⟨[], during, after, rfl, hafter, hduring⟩
    | copy hscan | install hscan | retry hscan => exact (hidle hscan rfl).elim

end Calls

section Attempts

variable {s : Shared} {i : Nat} {read : Handle}

theorem Charged.not_retry {s' : Shared} {failures : Nat} (h : Charged s i failures 0) :
    ¬ Step s (.retry i) s' := by
  intro hstep
  cases hstep.course i with
  | stays hother => exact hother rfl
  | retry hscan hid => exact Nat.not_lt_zero _ (h.lt ⟨_, _, hscan, rfl, hid⟩)

theorem exists_install {copy : Handle} {declared : Declared}
    (hscan : s.scans[i]? = some (.scanned read copy declared))
    (hid : read.id = s.cell.installed.id) :
    ∃ s', Step s (.install i) s' ∧ s'.scans[i]? = some (.returned ⟨copy, declared⟩) := by
  have hswap : s.cell.replaceIf read.id copy =
      (.ok s.cell.installed, { s.cell with installed := copy }) :=
    Cell.replaceIf_eq_ok_iff.mpr ⟨hid.symm, rfl, rfl⟩
  exact ⟨_, .install hscan hswap, getElem?_set_of_getElem? hscan _⟩

theorem exists_ending {scan : Scan} (hscan : s.scans[i]? = some scan)
    (hread : scan.read? = some read) (hfresh : ¬ s.Outdated i) : ∃ own s' result,
      (own = [.install i] ∨ own = [.copy i, .install i]) ∧ Steps s own s' ∧
      s'.scans[i]? = some (.returned result) := by
  have hid : read.id = s.cell.installed.id := by
    by_contra hne
    exact hfresh ⟨scan, read, hscan, hread, hne⟩
  cases scan with
  | called => cases hread
  | loaded loaded =>
    obtain rfl := Option.some.inj hread
    have hcopy := Step.copy hscan
    have hcopied := getElem?_set_of_getElem? hscan
      (.scanned loaded (s.cell.issue loaded.text).1 (Declared.ofText loaded.text))
    obtain ⟨s', hinstall, hreturned⟩ := exists_install (s := { s with
      cell := (s.cell.issue loaded.text).2
      scans := s.scans.set i _ }) hcopied hid
    exact ⟨_, s', _, .inr rfl, .cons hcopy (.cons hinstall (.nil _)), hreturned⟩
  | scanned loaded copy declared =>
    obtain rfl := Option.some.inj hread
    obtain ⟨s', hinstall, hreturned⟩ := exists_install hscan hid
    exact ⟨_, s', _, .inl rfl, .cons hinstall (.nil _), hreturned⟩
  | returned result => cases hread

end Attempts

structure Run (text : String) where
  state : Nat → Shared
  event : Nat → Event
  start : state 0 = ofText text
  step : ∀ n, Step (state n) (event n) (state (n + 1))

section Runs

variable {text : String} {i : Nat}

theorem count_le_encard (p : Nat → Prop) [DecidablePred p] (n : Nat) :
    (Nat.count p n : ℕ∞) ≤ {m | p m}.encard := by
  have hsub : (↑((Finset.range n).filter p) : Set Nat) ⊆ {m | p m} := by
    intro m hm
    exact (Finset.mem_filter.mp hm).2
  rw [Nat.count_eq_card_filter_range, ← Set.encard_coe_eq_coe_finsetCard]
  exact Set.encard_le_encard hsub

theorem exists_count_eq {p : Nat → Prop} [DecidablePred p] {k : Nat}
    (h : (k : ℕ∞) ≤ {n | p n}.encard) : ∃ n, k ≤ Nat.count p n := by
  obtain ⟨taken, hsub, hcard⟩ := Set.exists_subset_encard_eq h
  have hfinite : taken.Finite := Set.finite_of_encard_eq_coe hcard
  obtain ⟨bound, hbound⟩ := hfinite.bddAbove
  have htaken : taken ⊆ ↑((Finset.range (bound + 1)).filter p) := by
    intro n hn
    have hle : n ≤ bound := hbound hn
    exact Finset.mem_filter.mpr ⟨Finset.mem_range.mpr (by omega), hsub hn⟩
  have hle := Set.encard_le_encard htaken
  rw [hcard, Set.encard_coe_eq_coe_finsetCard, ← Nat.count_eq_card_filter_range] at hle
  exact ⟨bound + 1, by exact_mod_cast hle⟩

/-- What is counted less up to every moment is counted less on the whole. -/
theorem encard_le_encard_of_count_le {p q : Nat → Prop} [DecidablePred p] [DecidablePred q]
    (h : ∀ n, Nat.count p n ≤ Nat.count q n) : {n | p n}.encard ≤ {n | q n}.encard := by
  by_contra hlt
  rw [not_le] at hlt
  obtain ⟨k, hk⟩ := ENat.ne_top_iff_exists.mp hlt.ne_top
  rw [← hk] at hlt
  obtain ⟨n, hn⟩ := exists_count_eq (k := k + 1) (Order.add_one_le_of_lt hlt)
  have hq := count_le_encard q n
  rw [← hk] at hq
  have hle : Nat.count q n ≤ k := by exact_mod_cast hq
  have hpq := h n
  omega

theorem Run.charged (run : Run text) (i n : Nat) :
    Charged (run.state n) i (Nat.count (fun n => (run.event n).isRetry i) n)
      (Nat.count (fun n => (run.event n).swapsBeside i) n) := by
  induction n with
  | zero =>
    rw [run.start, Nat.count_zero, Nat.count_zero]
    refine ⟨le_rfl, ?_⟩
    rintro ⟨scan, read, hscan, -⟩
    cases hscan
  | succ n ih =>
    rw [Nat.count_succ, Nat.count_succ]
    exact ih.step (run.step n)

theorem Run.returned_le {run : Run text} {result : Cell.Rescan} {m n : Nat} (hle : m ≤ n)
    (h : (run.state m).scans[i]? = some (.returned result)) :
    (run.state n).scans[i]? = some (.returned result) := by
  induction n, hle using Nat.le_induction with
  | base => exact h
  | succ n _ ih => exact (((run.step n).course i).of_returned ih).2

theorem Run.not_step_of_install {run : Run text} {m n : Nat} (hlt : m < n)
    (h : run.event m = .install i) : (run.event n).stepOf? ≠ some i := by
  have hcourse := (run.step m).course i
  rw [h] at hcourse
  cases hcourse with
  | stays hother => exact absurd rfl hother
  | install hscan hid hnext =>
    have hreturned := run.returned_le (Nat.succ_le_of_lt hlt) hnext
    exact (((run.step n).course i).of_returned hreturned).1

theorem Run.encard_attempts_le (run : Run text) (i : Nat) :
    {n | (run.event n).isAttempt i}.encard ≤ {n | (run.event n).swapsBeside i}.encard + 1 := by
  have hattempt (e : Event) (h : e.isAttempt i = true) : e.isRetry i = true ∨ e = .install i := by
    cases e with
    | install j => exact .inr (congrArg Event.install (eq_of_beq h))
    | retry j => exact .inl h
    | _ => cases h
  have hsub : {n | (run.event n).isAttempt i} ⊆
      {n | (run.event n).isRetry i} ∪ {n | run.event n = .install i} :=
    fun n hn => hattempt (run.event n) hn
  have hretries : {n | (run.event n).isRetry i}.encard ≤
      {n | (run.event n).swapsBeside i}.encard :=
    encard_le_encard_of_count_le fun n => (run.charged i n).le
  have hinstalls : {n | run.event n = .install i}.encard ≤ 1 := by
    rw [Set.encard_le_one_iff]
    intro m n hm hn
    by_contra hne
    rcases Nat.lt_or_gt_of_ne hne with hlt | hlt
    · exact run.not_step_of_install hlt hm (hn ▸ rfl)
    · exact run.not_step_of_install hlt hn (hm ▸ rfl)
  calc {n | (run.event n).isAttempt i}.encard
      ≤ ({n | (run.event n).isRetry i} ∪ {n | run.event n = .install i}).encard :=
        Set.encard_le_encard hsub
    _ ≤ {n | (run.event n).isRetry i}.encard + {n | run.event n = .install i}.encard :=
        Set.encard_union_le _ _
    _ ≤ {n | (run.event n).swapsBeside i}.encard + 1 := add_le_add hretries hinstalls

end Runs

/-- What the failed attempts of a scan cost others, in every run that starts with a text. -/
structure PaidByOthers (text : String) (i : Nat) : Prop where
  /-- From its load to any later moment a scan fails at most as often as others swap. -/
  charged : ∀ before during s, Steps (ofText text) (before ++ .read i :: during) s →
    during.countP (Event.isRetry i) ≤ during.countP (Event.swapsBeside i)
  /-- A scan that returned failed only between its load and its return. -/
  returned : ∀ events s result, Steps (ofText text) events s →
    s.scans[i]? = some (.returned result) → ∃ before during after,
      events = before ++ .read i :: (during ++ .install i :: after) ∧
      (∀ e ∈ before ++ after, e.stepOf? ≠ some i) ∧
      (∀ e ∈ during, e ≠ .read i ∧ e ≠ .install i) ∧
      during.countP (Event.isRetry i) ≤ during.countP (Event.swapsBeside i)
  /-- While nobody else swaps no attempt fails, and the first one ends the scan. -/
  first : ∀ before during s, Steps (ofText text) (before ++ .read i :: during) s →
    (∀ e ∈ during, e.swapsBeside i = false) → .retry i ∉ during ∧
      (∀ s', ¬ Step s (.retry i) s') ∧
      ∀ scan read, s.scans[i]? = some scan → scan.read? = some read → ∃ own s' result,
        (own = [.install i] ∨ own = [.copy i, .install i]) ∧ Steps s own s' ∧
        s'.scans[i]? = some (.returned result)
  finite : ∀ run : Run text, {n | (run.event n).swapsBeside i}.Finite →
    {n | (run.event n).isAttempt i}.Finite
  attempts : ∀ run : Run text,
    {n | (run.event n).isAttempt i}.encard ≤ {n | (run.event n).swapsBeside i}.encard + 1

/-- Every scan that has to read again is paid for by a swap that somebody else made. -/
theorem rescans_paidByOthers (text : String) (i : Nat) : PaidByOthers text i where
  charged := fun before during s h => (charged_since_read h).le
  returned := by
    intro events s result h hreturned
    obtain ⟨before, during, after, rfl, hquiet, hduring⟩ := h.exists_read (.inl rfl) hreturned
    refine ⟨before, during, after, rfl, hquiet, hduring, ?_⟩
    have hevents : before ++ .read i :: (during ++ .install i :: after) =
        (before ++ .read i :: during) ++ .install i :: after := by simp
    rw [hevents] at h
    obtain ⟨s', hfront, -⟩ := exists_steps_of_append h
    exact (charged_since_read hfront).le
  first := by
    intro before during s h hcalm
    have hcharged := charged_since_read h
    have hswaps : during.countP (Event.swapsBeside i) = 0 := by
      rw [List.countP_eq_zero]
      exact fun e he => by simp [hcalm e he]
    rw [hswaps] at hcharged
    refine ⟨fun hmem => ?_, fun s' => hcharged.not_retry, fun scan read hscan hread => ?_⟩
    · have hnone := List.countP_eq_zero.mp (Nat.le_zero.mp hcharged.le) _ hmem
      exact hnone (beq_self_eq_true i)
    · exact exists_ending hscan hread fun hout => Nat.not_lt_zero _ (hcharged.lt hout)
  finite := by
    intro run hfinite
    rw [← Set.encard_lt_top_iff] at hfinite ⊢
    have hle := run.encard_attempts_le i
    exact lt_of_le_of_lt hle (ENat.add_lt_top.mpr ⟨hfinite, ENat.one_lt_top⟩)
  attempts := fun run => run.encard_attempts_le i

end Shared

end TemplateViews
