import TemplateViews.Proofs.Source.Page

/-! Generation line by line. What a template gives is what its lines give, each on its own, so
a template in two parts gives the statements of the first part and then those of the second,
whose lines have moved down by the lines of the first. It fails where the first of them fails. -/

namespace TemplateViews

open Markup

def MarkupError.moved (lines : Nat) (e : MarkupError) : MarkupError :=
  { e with line := e.line + lines }

def SourceLine.moved (lines : Nat) (line : SourceLine) : SourceLine :=
  { line with origin := line.origin.map (· + lines) }

/-- The lines that the code of a view is put together from. -/
def generatedLines (name : ViewName) (inputs : Inputs) (template : String) :
    Except MarkupError (List SourceLine) :=
  (bodyLines template).map (crateLines name inputs)

/-- The template lines behind generated lines with the statements on these, in order. -/
def statementsOf (lines : List SourceLine) : List (Nat × String) :=
  lines.filterMap fun line => line.origin.map fun number => (number, line.text)

/-- What lines give from a number on. -/
def bodyFrom (number : Nat) (raws : List (List Char)) : Except MarkupError (List SourceLine) :=
  ((raws.zipIdx number).mapM fun entry => bodyLine? entry.2 entry.1).map (List.filterMap id)

/-- What lines give further down. -/
def moveBody (lines : Nat) (body : Except MarkupError (List SourceLine)) :
    Except MarkupError (List SourceLine) :=
  (body.map (List.map (SourceLine.moved lines))).mapError (MarkupError.moved lines)

section Body

variable {number lines : Nat} {raw : List Char} {raws more : List (List Char)}

theorem bodyLines_eq_bodyFrom (template : String) :
    bodyLines template = bodyFrom 1 (linesOf template.toList) := by
  rw [bodyLines, bodyFrom]
  cases (linesOf template.toList |>.zipIdx 1).mapM fun line => bodyLine? line.2 line.1 <;> rfl

theorem readParts_moved (content : List Char) : readParts (number + lines) content =
    (readParts number content).mapError (MarkupError.moved lines) := by
  unfold readParts
  cases readPieces content with
  | mk pieces problem =>
    cases problem with
    | none => rfl
    | some problem => simp only [Except.mapError, MarkupError.moved]

/-- A line gives the same wherever it stands, but for its number. -/
theorem bodyLine?_moved : bodyLine? (number + lines) raw =
    ((bodyLine? number raw).map (Option.map (SourceLine.moved lines))).mapError
      (MarkupError.moved lines) := by
  by_cases hdeclares : declares (Line.ofChars raw).content = true
  · rw [bodyLine?, bodyLine?, if_pos hdeclares, if_pos hdeclares]
    rfl
  · rw [bodyLine?, bodyLine?, if_neg hdeclares, if_neg hdeclares, readParts_moved]
    cases readParts number (Line.ofChars raw).content with
    | error e => rfl
    | ok parts =>
      by_cases htext : lineStatements parts (Line.ofChars raw).terminator = ""
      · simp [htext, Except.mapError, Except.map]
      · simp [htext, Except.mapError, Except.map, SourceLine.moved]

theorem bodyFrom_cons : bodyFrom number (raw :: raws) = (bodyLine? number raw).bind fun found =>
    (bodyFrom (number + 1) raws).map (found.toList ++ ·) := by
  rw [bodyFrom, List.zipIdx_cons, filterMap_mapM_cons]
  rfl

theorem bodyFrom_append : bodyFrom number (raws ++ more) = (bodyFrom number raws).bind fun first =>
    (bodyFrom (number + raws.length) more).map (first ++ ·) := by
  induction raws generalizing number with
  | nil =>
    rw [List.nil_append, List.length_nil, Nat.add_zero]
    cases hmore : bodyFrom number more <;> rfl
  | cons raw raws ih =>
    have hnumber : number + 1 + raws.length = number + (raw :: raws).length := by
      rw [List.length_cons]
      omega
    rw [List.cons_append, bodyFrom_cons, bodyFrom_cons, ih, hnumber]
    cases bodyLine? number raw with
    | error e => rfl
    | ok found =>
      cases bodyFrom (number + 1) raws with
      | error e => rfl
      | ok first =>
        cases bodyFrom (number + (raw :: raws).length) more with
        | error e => rfl
        | ok second => simp [Except.bind, Except.map]

theorem bodyFrom_moved : bodyFrom (number + lines) raws = moveBody lines (bodyFrom number raws) := by
  induction raws generalizing number with
  | nil => rfl
  | cons raw raws ih =>
    rw [bodyFrom_cons, bodyFrom_cons, bodyLine?_moved, Nat.add_right_comm, ih]
    cases bodyLine? number raw with
    | error e => rfl
    | ok found =>
      cases bodyFrom (number + 1) raws with
      | error e => rfl
      | ok body => cases found <;> rfl

/-- The body of a template in two parts is put together from those of the parts. -/
theorem bodyLines_append {front back : String} (h : EndsLine front.toList) :
    bodyLines (front ++ back) = (bodyLines front).bind fun first =>
      (moveBody (front.toList.count '\n') (bodyLines back)).map (first ++ ·) := by
  rw [bodyLines_eq_bodyFrom, bodyLines_eq_bodyFrom, bodyLines_eq_bodyFrom, String.toList_append,
    linesOf_append_of_endsLine h, bodyFrom_append, length_linesOf h, bodyFrom_moved]

end Body

section Parts

variable {name : ViewName} {inputs : Inputs} {front back : String} {body : List SourceLine}

theorem bodyLines_append_eq_ok_iff (h : EndsLine front.toList) :
    bodyLines (front ++ back) = .ok body ↔ ∃ first second, bodyLines front = .ok first ∧
      bodyLines back = .ok second ∧
      body = first ++ second.map (SourceLine.moved (front.toList.count '\n')) := by
  rw [bodyLines_append h]
  cases bodyLines front with
  | error e => simp [Except.bind]
  | ok first =>
    cases bodyLines back with
    | error e => simp [Except.bind, moveBody, Except.map, Except.mapError]
    | ok second => simp [Except.bind, moveBody, Except.map, Except.mapError, eq_comm]

theorem bodyLines_append_eq_error_iff (h : EndsLine front.toList) {e : MarkupError} :
    bodyLines (front ++ back) = .error e ↔ bodyLines front = .error e ∨
      (∃ first, bodyLines front = .ok first) ∧
      ∃ behind, bodyLines back = .error behind ∧ e = behind.moved (front.toList.count '\n') := by
  rw [bodyLines_append h]
  cases bodyLines front with
  | error e => simp [Except.bind]
  | ok first =>
    cases bodyLines back with
    | error e => simp [Except.bind, moveBody, Except.map, Except.mapError, eq_comm]
    | ok second => simp [Except.bind, moveBody, Except.map, Except.mapError]

theorem generate_eq_generatedLines (template : String) : generate name inputs template =
    (generatedLines name inputs template).map (ViewSource.ofLines name.qualified) := by
  have hlayout : ViewSource.ofBody name inputs =
      fun body => ViewSource.ofLines name.qualified (crateLines name inputs body) := rfl
  rw [generate, generatedLines, hlayout]
  cases bodyLines template with
  | error e => simp only [Except.map]
  | ok body => simp only [Except.map]

theorem statementsOf_crateLines :
    statementsOf (crateLines name inputs body) = statementsOf body := by
  have hmapped (lines : List SourceLine) : statementsOf lines = statementsOf (mapped lines) := by
    rw [statementsOf, statementsOf, mapped, List.filterMap_filter]
    congr 1
    funext line
    cases horigin : line.origin <;> simp
  rw [hmapped, mapped_crateLines, hmapped body, statementsOf, List.filterMap_map]
  rfl

theorem statementsOf_append (body more : List SourceLine) :
    statementsOf (body ++ more) = statementsOf body ++ statementsOf more := List.filterMap_append

theorem statementsOf_map_moved (lines : Nat) : statementsOf (body.map (SourceLine.moved lines)) =
    (statementsOf body).map fun entry => (entry.1 + lines, entry.2) := by
  rw [statementsOf, statementsOf, List.filterMap_map, List.map_filterMap]
  congr 1
  funext line
  rw [Function.comp_apply, SourceLine.moved, Option.map_map, Option.map_map]
  rfl

theorem mapped_map_moved (lines : Nat) :
    mapped (body.map (SourceLine.moved lines)) = (mapped body).map (SourceLine.moved lines) := by
  rw [mapped, List.filter_map]
  congr 2
  funext line
  rw [Function.comp_apply, SourceLine.moved, Option.isSome_map]

theorem filterMap_origins_ofLines (lines : List SourceLine) (qualified : String) :
    (ViewSource.ofLines qualified lines).origins.filterMap id = (statementsOf lines).map Prod.fst := by
  rw [ViewSource.ofLines, List.filterMap_map, statementsOf, List.map_filterMap]
  congr 1
  funext line
  rw [Option.map_map]
  exact Option.map_id'.symm

end Parts

/-- Generated source of a template in two parts, put together from that of the parts. -/
structure Composes (name : ViewName) (inputs : Inputs) (front back : String) : Prop where
  generated : ∀ template, generate name inputs template =
    (generatedLines name inputs template).map (ViewSource.ofLines name.qualified)
  succeeds : (∃ whole, generate name inputs (front ++ back) = .ok whole) ↔
    (∃ first, generate name inputs front = .ok first) ∧
    ∃ second, generate name inputs back = .ok second
  fails : ∀ e, generate name inputs (front ++ back) = .error e ↔
    generate name inputs front = .error e ∨ (∃ first, generate name inputs front = .ok first) ∧
      ∃ behind, generate name inputs back = .error behind ∧
        e = ⟨behind.line + front.toList.count '\n', behind.column, behind.message⟩
  statements : ∀ whole first second, generatedLines name inputs (front ++ back) = .ok whole →
    generatedLines name inputs front = .ok first → generatedLines name inputs back = .ok second →
    statementsOf whole = statementsOf first ++
      (statementsOf second).map fun entry => (entry.1 + front.toList.count '\n', entry.2)
  mapped : ∀ whole first second, generate name inputs (front ++ back) = .ok whole →
    generate name inputs front = .ok first → generate name inputs back = .ok second →
    whole.origins.filterMap id = first.origins.filterMap id ++
      (second.origins.filterMap id).map (· + front.toList.count '\n') ∧
    (StayOnLine name inputs → whole.mappedLines = first.mappedLines ++ second.mappedLines)

section Composed

variable {name : ViewName} {inputs : Inputs} {template front back : String}
  {body first second : List SourceLine}

theorem exists_generate_iff :
    (∃ source, generate name inputs template = .ok source) ↔ ∃ body, bodyLines template = .ok body := by
  rw [generate]
  cases bodyLines template <;> simp [Except.map]

theorem body_of_parts (h : EndsLine front.toList) (hbody : bodyLines (front ++ back) = .ok body)
    (hfirst : bodyLines front = .ok first) (hsecond : bodyLines back = .ok second) :
    body = first ++ second.map (SourceLine.moved (front.toList.count '\n')) := by
  rw [bodyLines_append h, hfirst, hsecond] at hbody
  exact (Except.ok.inj hbody).symm

theorem numbers_ofBody : (ViewSource.ofBody name inputs body).origins.filterMap id =
    (statementsOf body).map Prod.fst := by
  rw [ViewSource.ofBody, filterMap_origins_ofLines, statementsOf_crateLines]

theorem mappedLines_ofBody (hname : StayOnLine name inputs) (hbody : bodyLines template = .ok body) :
    (ViewSource.ofBody name inputs body).mappedLines =
      (mapped body).map fun line => (line.deepen (name.modules.length + 2)).chars := by
  have hlines := onOneLine_crateLines hname (bodyLines_eq_ok_iff.mp hbody).onOneLine
  rw [ViewSource.ofBody, mappedLines_ofLines hlines, mapped_crateLines, List.map_map]
  rfl

end Composed

/-- Generation composes over the lines of every template, whatever the view is called. -/
theorem generate_composes (name : ViewName) (inputs : Inputs) {front back : String}
    (h : EndsLine front.toList) : Composes name inputs front back := by
  constructor
  · exact generate_eq_generatedLines
  · rw [exists_generate_iff, exists_generate_iff, exists_generate_iff]
    constructor
    · rintro ⟨body, hbody⟩
      obtain ⟨first, second, hfirst, hsecond, -⟩ := (bodyLines_append_eq_ok_iff h).mp hbody
      exact ⟨⟨first, hfirst⟩, second, hsecond⟩
    · rintro ⟨⟨first, hfirst⟩, second, hsecond⟩
      exact ⟨_, (bodyLines_append_eq_ok_iff h).mpr ⟨first, second, hfirst, hsecond, rfl⟩⟩
  · intro e
    rw [exists_generate_iff]
    simp only [generate, map_eq_error_iff]
    exact bodyLines_append_eq_error_iff h
  · intro whole first second hwhole hfirst hsecond
    obtain ⟨body, hbody, rfl⟩ := map_eq_ok_iff.mp hwhole
    obtain ⟨firstBody, hfirstBody, rfl⟩ := map_eq_ok_iff.mp hfirst
    obtain ⟨secondBody, hsecondBody, rfl⟩ := map_eq_ok_iff.mp hsecond
    obtain rfl := body_of_parts h hbody hfirstBody hsecondBody
    rw [statementsOf_crateLines, statementsOf_crateLines, statementsOf_crateLines,
      statementsOf_append, statementsOf_map_moved]
  · intro whole first second hwhole hfirst hsecond
    obtain ⟨body, hbody, rfl⟩ := map_eq_ok_iff.mp hwhole
    obtain ⟨firstBody, hfirstBody, rfl⟩ := map_eq_ok_iff.mp hfirst
    obtain ⟨secondBody, hsecondBody, rfl⟩ := map_eq_ok_iff.mp hsecond
    constructor
    · obtain rfl := body_of_parts h hbody hfirstBody hsecondBody
      rw [numbers_ofBody, numbers_ofBody, numbers_ofBody, statementsOf_append,
        statementsOf_map_moved, List.map_append, List.map_map, List.map_map]
      rfl
    · intro hname
      rw [mappedLines_ofBody hname hbody, mappedLines_ofBody hname hfirstBody,
        mappedLines_ofBody hname hsecondBody, body_of_parts h hbody hfirstBody hsecondBody,
        mapped_append, mapped_map_moved, List.map_append, List.map_map]
      rfl

/-- The second part fails on its second line, which is the fourth of both parts. -/
theorem generate_composes_page :
    EndsLine "@model Page\r\nHi @name\n".toList ∧
    Composes ⟨"site", "Page"⟩ ⟨some "Page", none⟩ "@model Page\r\nHi @name\n" "@{ x }\nü @5" ∧
    generate ⟨"site", "Page"⟩ ⟨some "Page", none⟩ "@{ x }\nü @5" =
      .error ⟨2, 4, "unexpected `5` after `@` (use `@@` for a literal `@`)"⟩ ∧
    generate ⟨"site", "Page"⟩ ⟨some "Page", none⟩ ("@model Page\r\nHi @name\n" ++ "@{ x }\nü @5") =
      .error ⟨4, 4, "unexpected `5` after `@` (use `@@` for a literal `@`)"⟩ := by
  have hends : EndsLine "@model Page\r\nHi @name\n".toList := by decide +kernel
  have hcomposes : Composes ⟨"site", "Page"⟩ ⟨some "Page", none⟩ "@model Page\r\nHi @name\n"
      "@{ x }\nü @5" := generate_composes _ _ hends
  have hfront : bodyLines "@model Page\r\nHi @name\n" = .ok
      [⟨0, "__out.write_str(\"Hi \")?; ::std::write!(__out, \"\x7b\x7d\", name)?; __out.write_str(\"\\n\")?;",
        some 2⟩] := by decide +kernel
  have hback : generate ⟨"site", "Page"⟩ ⟨some "Page", none⟩ "@{ x }\nü @5" =
      .error ⟨2, 4, "unexpected `5` after `@` (use `@@` for a literal `@`)"⟩ := by decide +kernel
  have hcount : "@model Page\r\nHi @name\n".toList.count '\n' = 2 := by decide +kernel
  have hfails := (hcomposes.fails _).mpr
    (.inr ⟨exists_generate_iff.mpr ⟨_, hfront⟩, _, hback, rfl⟩)
  rw [hcount] at hfails
  exact ⟨hends, hcomposes, hback, hfails⟩

end TemplateViews
