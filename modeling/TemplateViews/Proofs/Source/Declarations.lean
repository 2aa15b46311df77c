import TemplateViews.Proofs.Source.Page
import TemplateViews.Proofs.Template.Declared

/-! Scanner and generator agree on what a declaration is. The scanner looks at a line with its
terminator and the generator at its content; the lines left out of the body are those that
the scanner takes up, and all others are read as markup. -/

namespace TemplateViews

open Markup

/-- What a line gives if it is read as markup, whatever it declares. -/
def markupLine? (number : Nat) (raw : List Char) : Except MarkupError (Option SourceLine) :=
  (readParts number (Line.ofChars raw).content).map fun parts =>
    let text := lineStatements parts (Line.ofChars raw).terminator
    if text = "" then none else some { text := text, origin := some number }

/-- A line that gives nothing although it would as markup. -/
def LeavesOut (number : Nat) (raw : List Char) : Prop :=
  bodyLine? number raw = .ok none ∧ markupLine? number raw ≠ .ok none

def markupEntries (raws : List (List Char)) : List (List Char × Nat) :=
  (raws.zipIdx 1).filter fun entry => ¬ IsDeclaration entry.1

def markupBody (raws : List (List Char)) : Except MarkupError (List SourceLine) :=
  ((markupEntries raws).mapM fun entry => markupLine? entry.2 entry.1).map (List.filterMap id)

/-- A text with the content of one of its lines exchanged. -/
def exchanged (before : List (List Char)) (raw content : List Char) (after : List (List Char)) :
    String :=
  String.ofList (before ++ (content ++ (Line.ofChars raw).terminator.chars) :: after).flatten

theorem declares_iff {line : List Char} : declares line = true ↔ IsDeclaration line := by
  rw [isDeclaration_iff]
  simp [declares, directives, Keyword.token]

/-- The generator leaves a line to the scanner if and only if the scanner takes it up. -/
theorem declares_iff_argument? {line : List Char} :
    declares line = true ↔ ∃ keyword : Keyword, (keyword.argument? line).isSome := by
  rw [declares_iff]
  exact exists_congr fun keyword => Keyword.isSome_argument?_iff.symm

theorem declares_content_iff {raw : List Char} :
    declares (Line.ofChars raw).content = true ↔ IsDeclaration raw := by
  -- trimming takes the terminator away
  rw [declares_iff]
  conv_rhs => rw [← Line.chars_ofChars raw, Line.chars]
  exact (IsDeclaration.append_blanks_iff (Terminator.isBlank_of_mem _)).symm

section Line

variable {number : Nat} {raw : List Char}

theorem bodyLine?_of_isDeclaration (h : IsDeclaration raw) : bodyLine? number raw = .ok none := by
  rw [bodyLine?, if_pos (declares_content_iff.mpr h)]

theorem bodyLine?_eq_markupLine? (h : ¬ IsDeclaration raw) :
    bodyLine? number raw = markupLine? number raw := by
  rw [bodyLine?, if_neg (mt declares_content_iff.mp h), markupLine?]
  cases readParts number (Line.ofChars raw).content <;> rfl

theorem not_isDeclaration_nil : ¬ IsDeclaration [] := by
  rintro ⟨keyword, h⟩
  rw [trim_nil, List.prefix_nil] at h
  cases keyword <;> cases h

theorem not_isDeclaration_code (cs : List Char) : ¬ IsDeclaration ('@' :: '{' :: cs) := by
  rintro ⟨keyword, rest, hrest⟩
  obtain ⟨before, after, hbefore, -, hwhole⟩ := exists_blanks_trim ('@' :: '{' :: cs)
  rw [← hrest] at hwhole
  cases before with
  | nil => cases keyword <;> cases hwhole
  | cons c before =>
    -- trimming takes no `@` away
    obtain rfl : '@' = c := (List.cons.inj hwhole).1
    have hblank := hbefore '@' List.mem_cons_self
    exact absurd hblank (by decide)

theorem not_isDeclaration_of_means_nil {content : List Char} {pieces : List Piece}
    (h : Decomposes content pieces) (hmeans : Means pieces []) : ¬ IsDeclaration content := by
  cases h with
  | nil => exact not_isDeclaration_nil
  | cons hfits hpieces =>
    cases hmeans with
    | blank hbody hmeans => exact not_isDeclaration_code _

theorem markupLine?_ne_of_isDeclaration (h : IsDeclaration raw) :
    markupLine? number raw ≠ .ok none := by
  intro hnone
  obtain ⟨parts, hparts, htext⟩ := map_eq_ok_iff.mp hnone
  have hempty : lineStatements parts (Line.ofChars raw).terminator = "" := by
    by_contra hne
    rw [if_neg hne] at htext
    cases htext
  -- only blank code, or nothing at all, has no parts
  obtain ⟨rfl, -⟩ := (lineStatements_eq_empty_iff hparts).mp hempty
  obtain ⟨pieces, hpieces, hmeans⟩ := readParts_eq_ok_iff.mp hparts
  have hcontent := declares_iff.mp (declares_content_iff.mpr h)
  exact not_isDeclaration_of_means_nil hpieces hmeans hcontent

theorem leavesOut_iff : LeavesOut number raw ↔ IsDeclaration raw := by
  constructor
  · rintro ⟨hbody, hmarkup⟩
    by_contra hraw
    rw [← bodyLine?_eq_markupLine? hraw] at hmarkup
    exact hmarkup hbody
  · intro h
    exact ⟨bodyLine?_of_isDeclaration h, markupLine?_ne_of_isDeclaration h⟩

end Line

theorem filterMap_mapM_bodyLine? (entries : List (List Char × Nat)) :
    (entries.mapM fun entry => bodyLine? entry.2 entry.1).map (List.filterMap id) =
      ((entries.filter fun entry => ¬ IsDeclaration entry.1).mapM fun entry =>
        markupLine? entry.2 entry.1).map (List.filterMap id) := by
  induction entries with
  | nil => rfl
  | cons entry entries ih =>
    rw [filterMap_mapM_cons, ih]
    by_cases hentry : IsDeclaration entry.1
    · rw [List.filter_cons_of_neg (by simpa using hentry), bodyLine?_of_isDeclaration hentry]
      cases ((entries.filter fun entry => ¬ IsDeclaration entry.1).mapM fun entry =>
        markupLine? entry.2 entry.1).map (List.filterMap id) <;> rfl
    · rw [List.filter_cons_of_pos (by simpa using hentry), filterMap_mapM_cons,
        bodyLine?_eq_markupLine? hentry]

theorem bodyLines_eq_markupBody (template : String) :
    bodyLines template = markupBody (linesOf template.toList) := by
  rw [markupBody, markupEntries, ← filterMap_mapM_bodyLine?, bodyLines]
  cases (linesOf template.toList |>.zipIdx 1).mapM fun line => bodyLine? line.2 line.1 <;> rfl

theorem generate_eq_markupBody (name : ViewName) (inputs : Inputs) (template : String) :
    generate name inputs template =
      (markupBody (linesOf template.toList)).map (ViewSource.ofBody name inputs) := by
  rw [generate, bodyLines_eq_markupBody]

theorem markupBody_exchange {before after : List (List Char)} {raw raw' : List Char}
    (h : IsDeclaration raw) (h' : IsDeclaration raw') :
    markupBody (before ++ raw' :: after) = markupBody (before ++ raw :: after) := by
  have hentries : markupEntries (before ++ raw' :: after) =
      markupEntries (before ++ raw :: after) := by
    simp [markupEntries, List.zipIdx_append, h, h']
  rw [markupBody, hentries, markupBody]

theorem linesOf_exchanged {template : String} {before after : List (List Char)}
    {raw content : List Char} (hlines : linesOf template.toList = before ++ raw :: after)
    (hcontent : '\n' ∉ content) (hne : content ≠ []) :
    linesOf (exchanged before raw content after).toList =
      before ++ (content ++ (Line.ofChars raw).terminator.chars) :: after := by
  have hlined := lined_linesOf template.toList
  rw [hlines] at hlined
  rw [exchanged, String.toList_ofList, (hlined.exchange hcontent hne).linesOf_eq]

theorem ofChars_chars_of_lineAt? {template : String} {n : Nat} {line : Line}
    (h : lineAt? template n = some line) : Line.ofChars line.chars = line := by
  obtain ⟨raw, -, rfl⟩ := lineAt?_eq_some_iff.mp h
  rw [Line.chars_ofChars]

theorem mem_zipIdx_of_lineAt? {template : String} {n : Nat} {line : Line}
    (h : lineAt? template n = some line) :
    (line.chars, n) ∈ (linesOf template.toList).zipIdx 1 := by
  obtain ⟨raw, hraw, rfl⟩ := lineAt?_eq_some_iff.mp h
  rwa [Line.chars_ofChars]

theorem not_mem_origins_of_isDeclaration {name : ViewName} {inputs : Inputs} {template : String}
    {source : ViewSource} (h : generate name inputs template = .ok source) {n : Nat} {line : Line}
    (hline : lineAt? template n = some line) (hdeclaration : IsDeclaration line.chars) :
    some n ∉ source.origins := by
  intro hmem
  obtain ⟨body, hbody, rfl⟩ := generate_eq_ok_iff.mp h
  obtain ⟨generated, hgenerated, horigin⟩ := List.mem_map.mp hmem
  obtain ⟨behind, -, -, hbehind, hmarkup, -⟩ := hbody.says.stated generated hgenerated n horigin
  obtain rfl : behind = line := Option.some.inj (hbehind.symm.trans hline)
  have hdeclares := declares_content_iff.mpr hdeclaration
  rw [ofChars_chars_of_lineAt? hline, hmarkup] at hdeclares
  cases hdeclares

theorem Declared.exists_lineAt? {template : String} {keyword : Keyword} {d : Declaration}
    (h : (ofText template).of keyword = some d) :
    ∃ line, lineAt? template d.line = some line ∧ keyword.token.toList <+: trim line.chars := by
  rw [of_ofText] at h
  obtain ⟨⟨raw, n⟩, hraw, hline⟩ := List.exists_of_findSome?_eq_some h
  obtain rfl := Declaration.line_of_ofLine? hline
  have hsome : (Declaration.ofLine? keyword d.line raw).isSome := Option.isSome_of_eq_some hline
  refine ⟨Line.ofChars raw, lineAt?_eq_some_iff.mpr ⟨raw, hraw, rfl⟩, ?_⟩
  rw [Line.chars_ofChars]
  exact Declaration.isSome_ofLine?_iff.mp hsome

/-- Scanner and generator agree on which lines of a template declare something. -/
structure DeclarationsAgree (template : String) : Prop where
  recorded : ∀ keyword d, (Declared.ofText template).of keyword = some d →
    ∃ line, lineAt? template d.line = some line ∧ keyword.token.toList <+: trim line.chars
  noticed : ∀ (keyword : Keyword) n line, lineAt? template n = some line →
    keyword.token.toList <+: trim line.chars →
    ∃ d, (Declared.ofText template).of keyword = some d ∧ d.line ≤ n
  leftOut : ∀ n line, lineAt? template n = some line →
    (LeavesOut n line.chars ↔ IsDeclaration line.chars)
  parsed : ∀ name inputs, generate name inputs template =
    (markupBody (linesOf template.toList)).map (ViewSource.ofBody name inputs)
  unmapped : ∀ name inputs source, generate name inputs template = .ok source →
    (∀ n line, lineAt? template n = some line → IsDeclaration line.chars →
      some n ∉ source.origins) ∧
    ∀ keyword d, (Declared.ofText template).of keyword = some d → some d.line ∉ source.origins
  replaced : ∀ before raw after content, linesOf template.toList = before ++ raw :: after →
    IsDeclaration raw → IsDeclaration content → '\n' ∉ content →
    linesOf (exchanged before raw content after).toList =
      before ++ (content ++ (Line.ofChars raw).terminator.chars) :: after ∧
    ∀ name inputs,
      generate name inputs (exchanged before raw content after) = generate name inputs template

/-- No line of any template is both taken up and put out, and none is neither. -/
theorem declarations_agree (template : String) : DeclarationsAgree template := by
  constructor
  · exact fun keyword d => Declared.exists_lineAt?
  · intro keyword n line hline hstarts
    rw [Declared.of_ofText]
    exact Declared.exists_findSome?_le (mem_zipIdx_of_lineAt? hline) hstarts
  · exact fun n line _ => leavesOut_iff
  · exact fun name inputs => generate_eq_markupBody name inputs template
  · intro name inputs source h
    refine ⟨fun n line => not_mem_origins_of_isDeclaration h, fun keyword d hd => ?_⟩
    obtain ⟨line, hline, hstarts⟩ := Declared.exists_lineAt? hd
    exact not_mem_origins_of_isDeclaration h hline ⟨keyword, hstarts⟩
  · intro before raw after content hlines hraw hdeclaration hcontent
    have hne : content ≠ [] := by
      rintro rfl
      exact not_isDeclaration_nil hdeclaration
    have hexchanged := linesOf_exchanged hlines hcontent hne
    have hblanks : IsDeclaration (content ++ (Line.ofChars raw).terminator.chars) :=
      (IsDeclaration.append_blanks_iff (Terminator.isBlank_of_mem _)).mpr hdeclaration
    refine ⟨hexchanged, fun name inputs => ?_⟩
    rw [generate_eq_markupBody, generate_eq_markupBody, hexchanged, hlines,
      markupBody_exchange hraw hblanks]

end TemplateViews
