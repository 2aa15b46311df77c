import Mathlib.Data.Nat.Count
import TemplateViews.Proofs.Source.LineMap
import TemplateViews.Proofs.Source.Mapped

/-! Line numbers of generated source. The statements of a template line stand behind the head
of the frame and behind the statements of all template lines in front of it. -/

namespace TemplateViews

open Markup

instance (number : Nat) (line : Line) : Decidable (PutsOut number line) :=
  match hparts : readParts number line.content with
  | .error _ => isFalse fun h => by
    obtain ⟨-, parts, hok, -⟩ := h
    cases hparts.symm.trans hok
  | .ok parts =>
    decidable_of_iff
      (declares line.content = false ∧ (line.terminator ≠ .absent ∨ parts ≠ [])) (by
        simp [PutsOut, hparts])

/-- The template has a line of that number, which puts something on the page. -/
def PutsOutAt (template : String) (n : Nat) : Prop :=
  ∃ line ∈ lineAt? template n, PutsOut n line

instance (template : String) : DecidablePred (PutsOutAt template) := fun n =>
  inferInstanceAs (Decidable (∃ line ∈ lineAt? template n, PutsOut n line))

/-- The lines of a crate in front of the statements: its head, the modules and what opens the
render function. -/
def headLength (name : ViewName) : Nat := 3 + name.modules.length + 6

/-- The line of the source with the statements of a template line, which counts from 1. -/
def statementLine (name : ViewName) (template : String) (n : Nat) : Nat :=
  headLength name + Nat.count (PutsOutAt template) n + 1

/-- Lines with others among them, behind as many lines as given, which all others are from
no template line. -/
def StandsBehind (height : Nat) (lines all : List SourceLine) : Prop :=
  ∃ behind : List (Option Nat), (∀ origin ∈ behind, origin = none) ∧
    all.map SourceLine.origin =
      List.replicate height none ++ lines.map SourceLine.origin ++ behind

namespace StandsBehind

variable {height : Nat} {lines all more : List SourceLine}

theorem refl (lines : List SourceLine) : StandsBehind 0 lines lines :=
  ⟨[], List.forall_mem_nil _, by simp⟩

theorem append_left (h : StandsBehind height lines all) (hmore : ∀ line ∈ more, line.origin = none) :
    StandsBehind (more.length + height) lines (more ++ all) := by
  obtain ⟨behind, hbehind, hall⟩ := h
  have hfront : more.map SourceLine.origin = List.replicate more.length none := by
    rw [List.map_congr_left hmore, List.map_const']
  refine ⟨behind, hbehind, ?_⟩
  rw [List.map_append, hfront, hall, List.replicate_add, List.append_assoc, List.append_assoc,
    List.append_assoc]

theorem append_right (h : StandsBehind height lines all)
    (hmore : ∀ line ∈ more, line.origin = none) : StandsBehind height lines (all ++ more) := by
  obtain ⟨behind, hbehind, hall⟩ := h
  refine ⟨behind ++ more.map SourceLine.origin, ?_, ?_⟩
  · exact List.forall_mem_append.mpr ⟨hbehind, List.forall_mem_map.mpr hmore⟩
  · rw [List.map_append, hall, List.append_assoc]

theorem block (h : StandsBehind height lines all) (header tail : String) :
    StandsBehind (height + 1) lines (block header all tail) := by
  obtain ⟨behind, hbehind, hall⟩ := h
  refine ⟨behind ++ [none], List.forall_mem_append.mpr ⟨hbehind, by simp⟩, ?_⟩
  have hindent : (all.map SourceLine.indent).map SourceLine.origin = all.map SourceLine.origin :=
    List.map_map
  rw [TemplateViews.block, List.map_append, List.map_cons, hindent, hall, List.replicate_succ]
  simp

theorem inModules (h : StandsBehind height lines all) (modules : List String) :
    StandsBehind (modules.length + height) lines (inModules modules all) := by
  induction modules with
  | nil => simpa [TemplateViews.inModules] using h
  | cons module modules ih =>
    have hlength : (module :: modules).length + height = modules.length + height + 1 := by
      simp only [List.length_cons]
      omega
    rw [hlength]
    exact ih.block ("pub mod " ++ module) ""

theorem getElem?_iff (h : StandsBehind height lines all) {index n : Nat} :
    (all.map SourceLine.origin)[index]? = some (some n) ↔
      ∃ i, index = height + i ∧ (lines.map SourceLine.origin)[i]? = some (some n) := by
  obtain ⟨behind, hbehind, hall⟩ := h
  rw [hall, List.append_assoc, List.getElem?_append, List.length_replicate]
  split
  · next hfront =>
    refine iff_of_false (by simp [hfront]) ?_
    rintro ⟨i, rfl, -⟩
    omega
  · next hfront =>
    obtain ⟨i, rfl⟩ := Nat.exists_eq_add_of_le (Nat.le_of_not_lt hfront)
    rw [Nat.add_sub_cancel_left, List.getElem?_append]
    split
    · constructor
      · exact fun hi => ⟨i, rfl, hi⟩
      · rintro ⟨other, hother, hi⟩
        rwa [Nat.add_left_cancel hother]
    · next hlines =>
      refine iff_of_false (fun hlast => ?_) ?_
      · cases hbehind _ (List.mem_of_getElem? hlast)
      · rintro ⟨other, hother, hi⟩
        obtain rfl := Nat.add_left_cancel hother
        exact hlines (List.getElem?_eq_some_iff.mp hi).1

end StandsBehind

theorem standsBehind_crateLines (name : ViewName) (inputs : Inputs) (body : List SourceLine) :
    StandsBehind (headLength name) body (crateLines name inputs body) := by
  have hinterface : ∀ line ∈ interfaceLines name inputs, line.origin = none := by
    intro line hline
    have hmapped := List.filter_eq_nil_iff.mp (mapped_interfaceLines name inputs) line hline
    simpa using hmapped
  have hview : StandsBehind 6 body (viewLines name.type inputs body) :=
    ((((StandsBehind.refl body).append_right (by simp)).block _ _).block _ _).append_left
      (by simp [emptyLine])
  exact (((hview.inModules name.modules).append_left (by simp [emptyLine])).append_right
    (by simp [emptyLine])).append_right hinterface

/-- One of the lines that are counted from a number puts something on the page. -/
def PutsOutFrom (number : Nat) (raws : List (List Char)) (index : Nat) : Prop :=
  ∃ raw ∈ raws[index]?, PutsOut (number + index) (Line.ofChars raw)

instance (number : Nat) (raws : List (List Char)) : DecidablePred (PutsOutFrom number raws) :=
  fun index => inferInstanceAs
    (Decidable (∃ raw ∈ raws[index]?, PutsOut (number + index) (Line.ofChars raw)))

section Counting

variable {number : Nat} {raw : List Char} {raws : List (List Char)}

theorem putsOutFrom_zero_iff :
    PutsOutFrom number (raw :: raws) 0 ↔ PutsOut number (Line.ofChars raw) := by
  simp [PutsOutFrom]

theorem putsOutFrom_succ_iff {index : Nat} :
    PutsOutFrom number (raw :: raws) (index + 1) ↔ PutsOutFrom (number + 1) raws index := by
  rw [PutsOutFrom, PutsOutFrom, List.getElem?_cons_succ, Nat.add_right_comm, Nat.add_assoc]

theorem count_putsOutFrom_succ (index : Nat) :
    Nat.count (PutsOutFrom number (raw :: raws)) (index + 1) =
      Nat.count (PutsOutFrom (number + 1) raws) index +
        if PutsOut number (Line.ofChars raw) then 1 else 0 := by
  rw [Nat.count_succ']
  simp only [putsOutFrom_zero_iff, putsOutFrom_succ_iff]

theorem not_putsOut_of_bodyLine? (h : bodyLine? number raw = .ok none) :
    ¬ PutsOut number (Line.ofChars raw) := by
  intro hputs
  obtain ⟨parts, hparts, -⟩ := hputs.2
  cases h.symm.trans (bodyLine?_eq_some_iff.mpr ⟨hputs, parts, hparts, rfl⟩)

/-- A body has the line of a template line behind those of all lines in front of it. -/
theorem BodyFrom.getElem?_origin_iff {body : List SourceLine} (h : BodyFrom number raws body)
    {index n : Nat} : (body.map SourceLine.origin)[index]? = some (some n) ↔
      ∃ k, n = number + k ∧ PutsOutFrom number raws k ∧
        index = Nat.count (PutsOutFrom number raws) k := by
  induction h generalizing index with
  | nil => simp [PutsOutFrom]
  | @silent number raw raws body hline _ ih =>
    -- the number goes up without a line of the body, and the count stays
    have hsilent := not_putsOut_of_bodyLine? hline
    rw [ih]
    constructor
    · rintro ⟨k, hn, hputs, hindex⟩
      refine ⟨k + 1, by omega, putsOutFrom_succ_iff.mpr hputs, ?_⟩
      rw [count_putsOutFrom_succ, if_neg hsilent, Nat.add_zero, hindex]
    · rintro ⟨k, hn, hputs, hindex⟩
      cases k with
      | zero => exact absurd (putsOutFrom_zero_iff.mp hputs) hsilent
      | succ k =>
        rw [count_putsOutFrom_succ, if_neg hsilent, Nat.add_zero] at hindex
        exact ⟨k, by omega, putsOutFrom_succ_iff.mp hputs, hindex⟩
  | @line number raw raws line body hline _ ih =>
    obtain ⟨hputs, parts, -, rfl⟩ := bodyLine?_eq_some_iff.mp hline
    cases index with
    | zero =>
      rw [List.map_cons, List.getElem?_cons_zero]
      constructor
      · intro hn
        exact ⟨0, by simpa using hn.symm, putsOutFrom_zero_iff.mpr hputs, rfl⟩
      · rintro ⟨k, hn, -, hindex⟩
        cases k with
        | zero => rw [hn, Nat.add_zero]
        | succ k =>
          rw [count_putsOutFrom_succ, if_pos hputs] at hindex
          cases hindex
    | succ index =>
      rw [List.map_cons, List.getElem?_cons_succ, ih]
      constructor
      · rintro ⟨k, hn, hlater, hindex⟩
        refine ⟨k + 1, by omega, putsOutFrom_succ_iff.mpr hlater, ?_⟩
        rw [count_putsOutFrom_succ, if_pos hputs, hindex]
      · rintro ⟨k, hn, hlater, hindex⟩
        cases k with
        | zero => cases hindex
        | succ k =>
          rw [count_putsOutFrom_succ, if_pos hputs] at hindex
          exact ⟨k, by omega, putsOutFrom_succ_iff.mp hlater, Nat.succ.inj hindex⟩

theorem putsOutAt_succ_iff {template : String} {index : Nat} :
    PutsOutAt template (index + 1) ↔ PutsOutFrom 1 (linesOf template.toList) index := by
  rw [PutsOutAt, PutsOutFrom, lineAt?, Nat.add_comm 1]
  simp

theorem count_putsOutAt_succ (template : String) (index : Nat) :
    Nat.count (PutsOutAt template) (index + 1) =
      Nat.count (PutsOutFrom 1 (linesOf template.toList)) index := by
  have hzero : ¬ PutsOutAt template 0 := by
    rintro ⟨line, hline, -⟩
    cases hline
  rw [Nat.count_succ', if_neg hzero, Nat.add_zero]
  simp only [putsOutAt_succ_iff]

end Counting

theorem BodyFrom.getElem?_origin_iff_putsOutAt {template : String} {body : List SourceLine}
    (h : BodyFrom 1 (linesOf template.toList) body) {index n : Nat} :
    (body.map SourceLine.origin)[index]? = some (some n) ↔
      PutsOutAt template n ∧ index = Nat.count (PutsOutAt template) n := by
  rw [h.getElem?_origin_iff]
  constructor
  · rintro ⟨k, rfl, hputs, hindex⟩
    rw [Nat.add_comm, count_putsOutAt_succ]
    exact ⟨putsOutAt_succ_iff.mpr hputs, hindex⟩
  · rintro ⟨hputs, hindex⟩
    cases n with
    | zero =>
      obtain ⟨line, hline, -⟩ := hputs
      cases hline
    | succ k =>
      rw [count_putsOutAt_succ] at hindex
      exact ⟨k, Nat.add_comm k 1, putsOutAt_succ_iff.mp hputs, hindex⟩

/-- A generated line maps to a template line exactly if it has the number that the statements of
the template line have. -/
theorem templateLine?_ofBody {name : ViewName} {inputs : Inputs} {template : String}
    {body : List SourceLine} (h : BodyFrom 1 (linesOf template.toList) body) {number n : Nat} :
    (ViewSource.ofBody name inputs body).templateLine? number = some n ↔
      PutsOutAt template n ∧ number = statementLine name template n := by
  cases number with
  | zero => simp [ViewSource.templateLine?, statementLine]
  | succ index =>
    rw [ViewSource.templateLine?, Option.join_eq_some_iff, ViewSource.ofBody, ViewSource.ofLines,
      (standsBehind_crateLines name inputs body).getElem?_iff]
    constructor
    · rintro ⟨i, rfl, hi⟩
      obtain ⟨hputs, rfl⟩ := h.getElem?_origin_iff_putsOutAt.mp hi
      exact ⟨hputs, rfl⟩
    · rintro ⟨hputs, hindex⟩
      exact ⟨_, Nat.succ.inj hindex, h.getElem?_origin_iff_putsOutAt.mpr ⟨hputs, rfl⟩⟩

/-- A line of the source, counted from 1, that has the statements of a template line and stands
where they stand. -/
structure HoldsStatements (name : ViewName) (template : String) (source : ViewSource)
    (number n : Nat) : Prop where
  puts : PutsOutAt template n
  stands : number = statementLine name template n
  inside : number ≤ source.code.toList.count '\n'
  text : ∃ line parts, lineAt? template n = some line ∧ readParts n line.content = .ok parts ∧
    (linesOf source.code.toList)[number - 1]? = some
      (List.replicate (4 * (name.modules.length + 2)) ' ' ++
        (lineStatements parts line.terminator).toList ++ ['\n'])

theorem templateLine?_eq_some_iff {name : ViewName} {inputs : Inputs} {template : String}
    {source : ViewSource} (hname : StayOnLine name inputs)
    (h : generate name inputs template = .ok source) {number n : Nat} :
    source.templateLine? number = some n ↔ HoldsStatements name template source number n := by
  obtain ⟨body, hbody, rfl⟩ := generate_eq_ok_iff.mp h
  constructor
  · intro hline
    obtain ⟨hputs, hnumber⟩ := (templateLine?_ofBody hbody).mp hline
    rw [hnumber, statementLine, ViewSource.templateLine?, Option.join_eq_some_iff] at hline
    obtain ⟨line, parts, htemplate, hparts, htext⟩ := line_of_origins hname hbody hline
    have hinside := (List.getElem?_eq_some_iff.mp hline).1
    refine ⟨hputs, hnumber, ?_, line, parts, htemplate, hparts, ?_⟩
    · rw [hnumber, ViewSource.ofBody, count_ofLines (onOneLine_crateLines hname hbody.onOneLine)]
      exact hinside
    · rw [hnumber]
      exact htext
  · exact fun hholds => (templateLine?_ofBody hbody).mpr ⟨hholds.puts, hholds.stands⟩

end TemplateViews
