import Mathlib.Data.List.Forall2
import Mathlib.Logic.Relation
import TemplateViews.Proofs.Template.Declared
import TemplateViews.Proofs.Template.Stream
import TemplateViews.Proofs.Text.Lines

/-! The first line of a keyword counts. What a template declares for it is read off that line
alone, whatever other lines say, so more lines behind it, or lines without its token, do not
change more than the number of the line. -/

namespace TemplateViews

def Keyword.Starts (keyword : Keyword) (line : List Char) : Prop :=
  keyword.token.toList <+: trim line

/-- A declaration with what the first line of its keyword says, and the number of that line. -/
inductive FirstDeclared (template : String) (keyword : Keyword) : Declaration → Prop
  | intro {before after : List (List Char)} {line rest : List Char}
      (hlines : linesOf template.toList = before ++ line :: after)
      (hbefore : ∀ earlier ∈ before, ¬ keyword.Starts earlier)
      (hline : trim line = keyword.token.toList ++ rest) :
      FirstDeclared template keyword
        ⟨keyword, String.ofList (trim rest), before.flatten.count '\n' + 1⟩

/-- A template and the same one with a line more, which may depend on the lines in front of it. -/
inductive Gains (spare : List (List Char) → List Char → Prop) : String → String → Prop
  | intro {template more : String} {before after : List (List Char)} {line : List Char}
      (hlines : linesOf template.toList = before ++ after)
      (hmore : linesOf more.toList = before ++ line :: after) (hspare : spare before line) :
      Gains spare template more

/-- A line that declares nothing, or what a line in front declared already. -/
def Spare (before : List (List Char)) (line : List Char) : Prop :=
  ¬ IsDeclaration line ∨
    ∃ keyword : Keyword, keyword.Starts line ∧ ∃ earlier ∈ before, keyword.Starts earlier

/-- What a declaration says, wherever it stands. -/
def Declaration.content (d : Declaration) : Keyword × String := (d.keyword, d.typeText)

namespace Keyword

variable {keyword other : Keyword} {line : List Char}

theorem argument?_eq_none_iff : keyword.argument? line = none ↔ ¬ keyword.Starts line := by
  rw [← Option.not_isSome_iff_eq_none, isSome_argument?_iff]
  rfl

theorem eq_of_starts (h : keyword.Starts line) (hother : other.Starts line) : keyword = other := by
  obtain ⟨rest, hrest⟩ := h
  obtain ⟨behind, hbehind⟩ := hother
  rw [← hrest] at hbehind
  cases keyword <;> cases other
  · rfl
  · have hsecond := congrArg (·[1]?) hbehind
    simp [token] at hsecond
  · have hsecond := congrArg (·[1]?) hbehind
    simp [token] at hsecond
  · rfl

end Keyword

theorem Spare.starts {before : List (List Char)} {line : List Char} (h : Spare before line)
    {keyword : Keyword} (hline : keyword.Starts line) : ∃ earlier ∈ before, keyword.Starts earlier := by
  rcases h with hnot | ⟨other, hother, hearlier⟩
  · exact absurd ⟨keyword, hline⟩ hnot
  · rwa [Keyword.eq_of_starts hline hother]

section Search

variable {keyword : Keyword} {lines before after : List (List Char)} {line : List Char}
  {number : Nat} {d : Declaration}

theorem ofLine?_eq_some_iff : Declaration.ofLine? keyword number line = some d ↔
    ∃ rest, trim line = keyword.token.toList ++ rest ∧
      d = ⟨keyword, String.ofList (trim rest), number⟩ := by
  rw [Declaration.ofLine?, Option.map_eq_some_iff]
  constructor
  · rintro ⟨argument, hargument, rfl⟩
    obtain ⟨rest, hrest, rfl⟩ := Keyword.argument?_eq_some_iff.mp hargument
    exact ⟨rest, hrest, rfl⟩
  · rintro ⟨rest, hrest, rfl⟩
    exact ⟨_, Keyword.argument?_eq_some_iff.mpr ⟨rest, hrest, rfl⟩, rfl⟩

theorem ofLine?_eq_none_iff :
    Declaration.ofLine? keyword number line = none ↔ ¬ keyword.Starts line := by
  rw [Declaration.ofLine?, Option.map_eq_none_iff, Keyword.argument?_eq_none_iff]

theorem findSome?_ofLine?_eq_some_iff :
    ((lines.zipIdx number).findSome? fun entry => Declaration.ofLine? keyword entry.2 entry.1) =
      some d ↔
    ∃ before line after rest, lines = before ++ line :: after ∧
      (∀ earlier ∈ before, ¬ keyword.Starts earlier) ∧ trim line = keyword.token.toList ++ rest ∧
      d = ⟨keyword, String.ofList (trim rest), before.length + number⟩ := by
  induction lines generalizing number with
  | nil => simp
  | cons first lines ih =>
    rw [List.zipIdx_cons, List.findSome?_cons]
    cases hfirst : Declaration.ofLine? keyword number first with
    | some found =>
      obtain ⟨rest, hrest, rfl⟩ := ofLine?_eq_some_iff.mp hfirst
      have hstarts : keyword.Starts first := ⟨rest, hrest.symm⟩
      constructor
      · rintro h
        obtain rfl := Option.some.inj h
        exact ⟨[], first, lines, rest, rfl, by simp, hrest, by simp⟩
      · rintro ⟨before, line, after, behind, hlines, hbefore, hline, rfl⟩
        cases before with
        | nil =>
          obtain ⟨rfl, rfl⟩ := List.cons.inj hlines
          obtain rfl := List.append_cancel_left (hrest.symm.trans hline)
          simp
        | cons earlier before =>
          obtain ⟨rfl, -⟩ := List.cons.inj hlines
          exact absurd hstarts (hbefore first List.mem_cons_self)
    | none =>
      have hnot := ofLine?_eq_none_iff.mp hfirst
      dsimp only
      rw [ih]
      constructor
      · rintro ⟨before, line, after, rest, rfl, hbefore, hline, rfl⟩
        refine ⟨first :: before, line, after, rest, rfl, ?_, hline, ?_⟩
        · exact List.forall_mem_cons.mpr ⟨hnot, hbefore⟩
        · rw [List.length_cons, Nat.add_right_comm, Nat.add_assoc]
      · rintro ⟨before, line, after, rest, hlines, hbefore, hline, rfl⟩
        cases before with
        | nil =>
          obtain ⟨rfl, -⟩ := List.cons.inj hlines
          exact absurd ⟨rest, hline.symm⟩ hnot
        | cons earlier before =>
          obtain ⟨rfl, rfl⟩ := List.cons.inj hlines
          refine ⟨before, line, after, rest, rfl, (List.forall_mem_cons.mp hbefore).2, hline, ?_⟩
          rw [List.length_cons, Nat.add_right_comm, Nat.add_assoc]

/-- Lines that are exchanged without a token on either side leave a declaration as it is. -/
theorem findSome?_ofLine?_congr {others : List (List Char)} (h : List.Forall₂ (fun line other =>
      line = other ∨ ¬ keyword.Starts line ∧ ¬ keyword.Starts other) lines others) :
    ((others.zipIdx number).findSome? fun entry => Declaration.ofLine? keyword entry.2 entry.1) =
      (lines.zipIdx number).findSome? fun entry => Declaration.ofLine? keyword entry.2 entry.1 := by
  induction h generalizing number with
  | nil => rfl
  | @cons line other _ _ hline _ ih =>
    have hsame : Declaration.ofLine? keyword number other = Declaration.ofLine? keyword number line := by
      rcases hline with rfl | ⟨hline, hother⟩
      · rfl
      · rw [ofLine?_eq_none_iff.mpr hline, ofLine?_eq_none_iff.mpr hother]
    rw [List.zipIdx_cons, List.zipIdx_cons, List.findSome?_cons, List.findSome?_cons, hsame, ih]

theorem findSome?_argument?_gain
    (h : keyword.Starts line → ∃ earlier ∈ before, keyword.Starts earlier) :
    (before ++ line :: after).findSome? keyword.argument? =
      (before ++ after).findSome? keyword.argument? := by
  rw [List.findSome?_append, List.findSome?_append, List.findSome?_cons]
  by_cases hline : keyword.Starts line
  · obtain ⟨earlier, hearlier, hstarts⟩ := h hline
    have hsome : (before.findSome? keyword.argument?).isSome :=
      List.findSome?_isSome_iff.mpr ⟨earlier, hearlier, Keyword.isSome_argument?_iff.mpr hstarts⟩
    obtain ⟨argument, hargument⟩ := Option.isSome_iff_exists.mp hsome
    rw [hargument, Option.some_or, Option.some_or]
  · rw [Keyword.argument?_eq_none_iff.mpr hline]

end Search

namespace Declared

variable {template more : String} {keyword : Keyword}

theorem of_eq_some_iff {d : Declaration} :
    (ofText template).of keyword = some d ↔ FirstDeclared template keyword d := by
  rw [of_ofText, findSome?_ofLine?_eq_some_iff]
  constructor
  · rintro ⟨before, line, after, rest, hlines, hbefore, hline, rfl⟩
    have hlined := lined_linesOf template.toList
    rw [hlines] at hlined
    rw [← hlined.count_before]
    exact .intro hlines hbefore hline
  · rintro ⟨hlines, hbefore, hline⟩
    have hlined := lined_linesOf template.toList
    rw [hlines] at hlined
    exact ⟨_, _, _, _, hlines, hbefore, hline, by rw [hlined.count_before]⟩

theorem isSome_of_iff : ((ofText template).of keyword).isSome ↔
    ∃ line ∈ linesOf template.toList, keyword.Starts line := by
  rw [of_ofText, List.findSome?_isSome_iff]
  constructor
  · rintro ⟨entry, hentry, hsome⟩
    exact ⟨entry.1, List.fst_mem_of_mem_zipIdx hentry, Declaration.isSome_ofLine?_iff.mp hsome⟩
  · rintro ⟨line, hline, hstarts⟩
    obtain ⟨index, hindex⟩ := List.mem_iff_getElem?.mp hline
    refine ⟨(line, index + 1), ?_, Declaration.isSome_ofLine?_iff.mpr hstarts⟩
    exact List.mk_mem_zipIdx_iff_le_and_getElem?_sub.mpr ⟨by omega, by simpa using hindex⟩

theorem content_of_ofText : ((ofText template).of keyword).map Declaration.content =
    ((linesOf template.toList).findSome? keyword.argument?).map fun argument =>
      (keyword, String.ofList argument) := by
  have hline (entry : List Char × Nat) :
      (Declaration.ofLine? keyword entry.2 entry.1).map Declaration.content =
        (keyword.argument? entry.1).map fun argument => (keyword, String.ofList argument) := by
    rw [Declaration.ofLine?, Option.map_map]
    rfl
  have hlines : linesOf template.toList = ((linesOf template.toList).zipIdx 1).map Prod.fst :=
    (List.zipIdx_map_fst 1 _).symm
  conv_rhs => rw [hlines, List.findSome?_map, List.map_findSome?]
  rw [of_ofText, List.map_findSome?]
  congr 1
  exact funext hline

theorem content_of_gains {spare : List (List Char) → List Char → Prop}
    (hspare : ∀ before line, spare before line → keyword.Starts line →
      ∃ earlier ∈ before, keyword.Starts earlier) (h : Gains spare template more) :
    ((ofText more).of keyword).map Declaration.content =
      ((ofText template).of keyword).map Declaration.content := by
  obtain ⟨hlines, hmore, hgained⟩ := h
  rw [content_of_ofText, content_of_ofText, hlines, hmore,
    findSome?_argument?_gain (hspare _ _ hgained)]

/-- However many lines are put in and taken out, a step changes no content and so does a run. -/
theorem content_of_eqvGen {spare : List (List Char) → List Char → Prop}
    (hspare : ∀ before line, spare before line → keyword.Starts line →
      ∃ earlier ∈ before, keyword.Starts earlier)
    (h : Relation.EqvGen (Gains spare) template more) :
    ((ofText more).of keyword).map Declaration.content =
      ((ofText template).of keyword).map Declaration.content := by
  induction h with
  | rel template more hstep => exact content_of_gains hspare hstep
  | refl template => rfl
  | symm template more _ ih => exact ih.symm
  | trans template middle more _ _ ih ih' => exact ih'.trans ih

end Declared

/-- The first line of each keyword in a template declares, and no other line takes part. -/
structure FirstCounts (template : String) : Prop where
  present : ∀ keyword, ((Declared.ofText template).of keyword).isSome ↔
    ∃ line ∈ linesOf template.toList, keyword.Starts line
  first : ∀ keyword d,
    (Declared.ofText template).of keyword = some d ↔ FirstDeclared template keyword d
  exchanged : ∀ (keyword : Keyword) other, List.Forall₂ (fun line exchanged =>
      line = exchanged ∨ ¬ keyword.Starts line ∧ ¬ keyword.Starts exchanged)
      (linesOf template.toList) (linesOf other.toList) →
    (Declared.ofText other).of keyword = (Declared.ofText template).of keyword
  independent : ∀ (keyword : Keyword) other,
    Relation.EqvGen (Gains fun _ line => ¬ keyword.Starts line) template other →
    ((Declared.ofText other).of keyword).map Declaration.content =
      ((Declared.ofText template).of keyword).map Declaration.content
  undisturbed : ∀ other, Relation.EqvGen (Gains Spare) template other → ∀ keyword,
    ((Declared.ofText other).of keyword).map Declaration.content =
      ((Declared.ofText template).of keyword).map Declaration.content
  streamed : ∀ chunks : Chunks, chunks.flatten = Utf8.encode template.toList →
    Scanned.ofChunks chunks = .ok ⟨template, Declared.ofText template⟩

/-- In every template the first line of a keyword counts, for each keyword on its own. -/
theorem first_counts (template : String) : FirstCounts template := by
  constructor
  · exact fun keyword => Declared.isSome_of_iff
  · exact fun keyword d => Declared.of_eq_some_iff
  · intro keyword other hlines
    rw [Declared.of_ofText, Declared.of_ofText]
    exact findSome?_ofLine?_congr hlines
  · intro keyword other hother
    exact Declared.content_of_eqvGen (fun _ _ hnot hline => absurd hline hnot) hother
  · intro other hother keyword
    exact Declared.content_of_eqvGen (fun _ _ hspare hline => hspare.starts hline) hother
  · exact fun chunks hchunks => Scanned.ofChunks_of_flatten hchunks

example : Declared.ofText "<p>\n  @model  Page \r\n@model Post\n@handlerget" =
    ⟨some ⟨.model, "Page", 2⟩, some ⟨.handler, "get", 4⟩⟩ := by decide +kernel

end TemplateViews
