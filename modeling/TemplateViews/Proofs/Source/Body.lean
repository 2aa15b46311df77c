import Mathlib.Data.List.Basic
import TemplateViews.Proofs.Markup.Grammar
import TemplateViews.Proofs.Outcome
import TemplateViews.Proofs.Text.Lines
import TemplateViews.Proofs.Text.Quoted
import TemplateViews.Source.Body

/-! The body of a render function, line by line: which template lines put something on
the page, and that the statements of each stay on one line. -/

namespace TemplateViews

open Markup

/-- A line that declares nothing and has a terminator or parts. -/
def PutsOut (number : Nat) (line : Line) : Prop :=
  declares line.content = false ∧ ∃ parts, readParts number line.content = .ok parts ∧
    (line.terminator ≠ .absent ∨ parts ≠ [])

theorem toList_writeText (text : String) :
    (writeText text).toList = "__out.write_str(".toList ++ (quoted text).toList ++ ")?;".toList := by
  unfold writeText
  rw [String.toList_append, String.toList_append]

theorem toList_statement_value (value : String) :
    (Part.value value).statement.toList =
      "::std::write!(__out, \"\x7b\x7d\", ".toList ++ value.toList ++ ")?;".toList := by
  show ("::std::write!(__out, \"\x7b\x7d\", " ++ value ++ ")?;").toList = _
  rw [String.toList_append, String.toList_append]

theorem getLast?_writeText (text : String) : (writeText text).toList.getLast? = some ';' := by
  rw [toList_writeText, List.getLast?_append]
  rfl

theorem newline_not_mem_writeText (text : String) : '\n' ∉ (writeText text).toList := by
  rw [toList_writeText, List.mem_append, List.mem_append, not_or, not_or]
  exact ⟨⟨by decide, newline_not_mem_quoted text⟩, by decide⟩

namespace Markup

variable {piece : Piece} {part : Part}

theorem Piece.exists_getLast (h : piece.part? = some part) :
    ∃ c, part.statement.toList.getLast? = some c ∧ isBlank c = false := by
  have hvalue (value : String) : (Part.value value).statement.toList.getLast? = some ';' := by
    rw [toList_statement_value, List.getLast?_append]
    rfl
  cases piece with
  | run text =>
    obtain rfl := Option.some.inj h
    exact ⟨';', getLast?_writeText _, by decide⟩
  | atSign =>
    obtain rfl := Option.some.inj h
    exact ⟨';', getLast?_writeText _, by decide⟩
  | expression body =>
    obtain rfl := Option.some.inj h
    exact ⟨';', hvalue _, by decide⟩
  | path names =>
    obtain rfl := Option.some.inj h
    exact ⟨';', hvalue _, by decide⟩
  | code body =>
    obtain ⟨hbody, rfl⟩ := by simpa [Piece.part?] using h
    show ∃ c, (String.ofList (trim body)).toList.getLast? = some c ∧ isBlank c = false
    rw [String.toList_ofList]
    have hlast := List.getLast?_eq_some_getLast hbody
    exact ⟨_, hlast, not_blank_of_mem_getLast?_trimEnd _ hlast⟩

theorem Piece.exists_not_blank (h : piece.part? = some part) :
    ∃ c ∈ part.statement.toList, isBlank c = false := by
  obtain ⟨c, hlast, hvisible⟩ := exists_getLast h
  exact ⟨c, List.mem_of_getLast? hlast, hvisible⟩

theorem Piece.newline_not_mem_statement (h : piece.part? = some part)
    (hwritten : '\n' ∉ piece.written) : '\n' ∉ part.statement.toList := by
  have hvalue {value : List Char} (hvalue : '\n' ∉ value) :
      '\n' ∉ (Part.value (String.ofList value)).statement.toList := by
    simp only [toList_statement_value, String.toList_ofList, List.mem_append, not_or]
    exact ⟨⟨by decide, hvalue⟩, by decide⟩
  cases piece with
  | run text =>
    obtain rfl := Option.some.inj h
    exact newline_not_mem_writeText _
  | atSign =>
    obtain rfl := Option.some.inj h
    exact newline_not_mem_writeText _
  | expression body =>
    obtain rfl := Option.some.inj h
    exact hvalue fun hmem => hwritten (by simp [Piece.written, mem_of_mem_trim hmem])
  | path names =>
    obtain rfl := Option.some.inj h
    exact hvalue fun hmem => hwritten (List.mem_cons_of_mem _ hmem)
  | code body =>
    obtain ⟨-, rfl⟩ := by simpa [Piece.part?] using h
    show '\n' ∉ (String.ofList _).toList
    rw [String.toList_ofList]
    exact fun hmem => hwritten (by simp [Piece.written, mem_of_mem_trim hmem])

theorem exists_piece_of_mem {number : Nat} {content : List Char} {parts : List Part}
    (h : readParts number content = .ok parts) (hpart : part ∈ parts) :
    ∃ piece : Piece, piece.part? = some part ∧ ∀ c ∈ piece.written, c ∈ content := by
  obtain ⟨pieces, hpieces, hmeans⟩ := readParts_eq_ok_iff.mp h
  rw [means_iff.mp hmeans] at hpart
  obtain ⟨piece, hpiece, hsome⟩ := List.mem_filterMap.mp hpart
  refine ⟨piece, hsome, fun c hc => ?_⟩
  rw [← hpieces.flatMap_written]
  exact List.mem_flatMap.mpr ⟨piece, hpiece, hc⟩

end Markup

theorem Terminator.mem_statement {terminator : Terminator} (h : terminator ≠ .absent) :
    ';' ∈ (terminator.statement?.getD "").toList := by
  cases terminator with
  | absent => exact absurd rfl h
  | lineFeed => exact List.mem_of_getLast? (getLast?_writeText _)
  | returnLineFeed => exact List.mem_of_getLast? (getLast?_writeText _)

theorem lineStatements_eq_empty_iff {number : Nat} {content : List Char} {parts : List Part}
    {terminator : Terminator} (h : readParts number content = .ok parts) :
    lineStatements parts terminator = "" ↔ parts = [] ∧ terminator = .absent := by
  constructor
  · intro hempty
    have hblank := trimEnd_eq_nil_iff.mp (String.ofList_eq_empty_iff.mp hempty)
    constructor
    · refine List.eq_nil_iff_forall_not_mem.mpr fun part hpart => ?_
      obtain ⟨piece, hpiece, -⟩ := exists_piece_of_mem h hpart
      obtain ⟨c, hc, hvisible⟩ := Piece.exists_not_blank hpiece
      have hmem : c ∈ parts.flatMap (fun part => part.statement.toList ++ [' ']) :=
        List.mem_flatMap.mpr ⟨part, hpart, List.mem_append_left _ hc⟩
      rw [hblank c (List.mem_append_left _ hmem)] at hvisible
      cases hvisible
    · by_cases hterminator : terminator = .absent
      · exact hterminator
      · have hmem := Terminator.mem_statement hterminator
        exact absurd (hblank ';' (List.mem_append_right _ hmem)) (by decide)
  · rintro ⟨rfl, rfl⟩
    rfl

theorem PutsOut.lineStatements_ne {number : Nat} {line : Line} {parts : List Part}
    (h : PutsOut number line) (hparts : readParts number line.content = .ok parts) :
    lineStatements parts line.terminator ≠ "" := by
  obtain ⟨-, parts', hparts', hputs⟩ := h
  obtain rfl : parts' = parts := Except.ok.inj (hparts'.symm.trans hparts)
  rw [Ne, lineStatements_eq_empty_iff hparts, not_and_or]
  exact hputs.symm

theorem newline_not_mem_lineStatements {number : Nat} {content : List Char} {parts : List Part}
    {terminator : Terminator} (h : readParts number content = .ok parts)
    (hcontent : '\n' ∉ content) : '\n' ∉ (lineStatements parts terminator).toList := by
  have hterminator : '\n' ∉ (terminator.statement?.getD "").toList := by
    cases terminator <;> decide
  intro hmem
  rw [lineStatements, String.toList_ofList] at hmem
  rcases List.mem_append.mp (mem_of_mem_trimEnd hmem) with hmem | hmem
  · obtain ⟨part, hpart, hmem⟩ := List.mem_flatMap.mp hmem
    obtain ⟨piece, hpiece, hwritten⟩ := exists_piece_of_mem h hpart
    have hstatement := Piece.newline_not_mem_statement hpiece fun hc => hcontent (hwritten _ hc)
    rcases List.mem_append.mp hmem with hmem | hmem
    · exact hstatement hmem
    · exact absurd (List.mem_singleton.mp hmem) (by decide)
  · exact hterminator hmem

/-- The body that template lines give, the first of which has a number. -/
inductive BodyFrom : Nat → List (List Char) → List SourceLine → Prop
  | nil {number : Nat} : BodyFrom number [] []
  | silent {number : Nat} {raw : List Char} {raws : List (List Char)} {body : List SourceLine}
      (hline : bodyLine? number raw = .ok none) (h : BodyFrom (number + 1) raws body) :
      BodyFrom number (raw :: raws) body
  | line {number : Nat} {raw : List Char} {raws : List (List Char)} {line : SourceLine}
      {body : List SourceLine} (hline : bodyLine? number raw = .ok (some line))
      (h : BodyFrom (number + 1) raws body) : BodyFrom number (raw :: raws) (line :: body)

/-- A line that puts something on the page gives its own statements and nothing else does. -/
theorem bodyLine?_eq_some_iff {number : Nat} {raw : List Char} {line : SourceLine} :
    bodyLine? number raw = .ok (some line) ↔
      PutsOut number (Line.ofChars raw) ∧ ∃ parts,
        readParts number (Line.ofChars raw).content = .ok parts ∧
        line = { text := lineStatements parts (Line.ofChars raw).terminator, origin := some number } := by
  constructor
  · intro h
    unfold bodyLine? at h
    dsimp only at h
    split at h
    · cases h
    · next hdeclares =>
      split at h
      · cases h
      · next parts hparts =>
        split at h
        · cases h
        · next htext =>
          obtain rfl := by simpa using h
          rw [lineStatements_eq_empty_iff hparts, not_and_or] at htext
          exact ⟨⟨by simpa using hdeclares, parts, hparts, htext.symm⟩, parts, hparts, rfl⟩
  · rintro ⟨hputs, parts, hparts, rfl⟩
    simp [bodyLine?, hputs.1, hparts, hputs.lineStatements_ne hparts]

theorem mapM_bodyLine?_iff {number : Nat} {raws : List (List Char)} {body : List SourceLine} :
    (∃ found, (raws.zipIdx number).mapM (fun line => bodyLine? line.2 line.1) = .ok found ∧
      found.filterMap id = body) ↔ BodyFrom number raws body := by
  induction raws generalizing number body with
  | nil =>
    constructor
    · rintro ⟨found, hfound, rfl⟩
      obtain rfl : [] = found := Except.ok.inj hfound
      exact .nil
    · rintro ⟨⟩
      exact ⟨[], rfl, rfl⟩
  | cons raw raws ih =>
    simp only [List.zipIdx_cons]
    constructor
    · rintro ⟨found, hfound, rfl⟩
      obtain ⟨line?, rest, hline, hrest, rfl⟩ := mapM_cons_eq_ok_iff.mp hfound
      have hbody := ih.mp ⟨rest, hrest, rfl⟩
      cases line? with
      | none => exact .silent hline hbody
      | some line => exact .line hline hbody
    · intro h
      cases h with
      | silent hline hbody =>
        obtain ⟨rest, hrest, rfl⟩ := ih.mpr hbody
        exact ⟨none :: rest, mapM_cons_eq_ok_iff.mpr ⟨_, _, hline, hrest, rfl⟩, rfl⟩
      | line hline hbody =>
        obtain ⟨rest, hrest, rfl⟩ := ih.mpr hbody
        exact ⟨some _ :: rest, mapM_cons_eq_ok_iff.mpr ⟨_, _, hline, hrest, rfl⟩, rfl⟩

theorem bodyLines_eq_ok_iff {template : String} {body : List SourceLine} :
    bodyLines template = .ok body ↔ BodyFrom 1 (linesOf template.toList) body := by
  rw [← mapM_bodyLine?_iff, bodyLines]
  split
  · next e he => simp [he]
  · next lines hlines => simp [hlines]

namespace BodyFrom

variable {number : Nat} {raws : List (List Char)} {body : List SourceLine}

/-- The lines of a body are what its template lines give, each at its own number. -/
theorem mem_iff (h : BodyFrom number raws body) {line : SourceLine} :
    line ∈ body ↔
      ∃ entry ∈ raws.zipIdx number, bodyLine? entry.2 entry.1 = .ok (some line) := by
  induction h with
  | nil => simp
  | silent hline _ ih =>
    rw [ih, List.zipIdx_cons, List.exists_mem_cons_iff, hline]
    simp
  | line hline _ ih =>
    rw [List.mem_cons, ih, List.zipIdx_cons, List.exists_mem_cons_iff, hline]
    simp [eq_comm]

theorem origin_of_mem (h : BodyFrom number raws body) {line : SourceLine} (hline : line ∈ body) :
    ∃ n, number ≤ n ∧ line.origin = some n := by
  obtain ⟨⟨raw, n⟩, hraw, hbody⟩ := h.mem_iff.mp hline
  obtain ⟨-, parts, -, rfl⟩ := bodyLine?_eq_some_iff.mp hbody
  exact ⟨n, (List.mk_mem_zipIdx_iff_le_and_getElem?_sub.mp hraw).1, rfl⟩

theorem pairwise_origins (h : BodyFrom number raws body) :
    (body.filterMap SourceLine.origin).Pairwise (· < ·) := by
  induction h with
  | nil => simp
  | silent _ _ ih => exact ih
  | @line number _ _ line _ hline hrest ih =>
    obtain ⟨-, parts, -, rfl⟩ := bodyLine?_eq_some_iff.mp hline
    rw [List.filterMap_cons, List.pairwise_cons]
    refine ⟨fun n hn => ?_, ih⟩
    obtain ⟨later, hlater, horigin⟩ := List.mem_filterMap.mp hn
    obtain ⟨m, hm, hlaterOrigin⟩ := hrest.origin_of_mem hlater
    obtain rfl : m = n := Option.some.inj (hlaterOrigin.symm.trans horigin)
    exact hm

end BodyFrom

end TemplateViews
