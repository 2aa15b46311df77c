import TemplateViews.Proofs.Source.Body
import TemplateViews.Proofs.Source.Frame

/-! Generated source maps back to its template exactly. Each generated line is one line
of text; those of the body come from the template line they are mapped to, and the
others make the frame that the empty template gives. -/

namespace TemplateViews

open Markup

def lineAt? (template : String) : Nat → Option Line
  | 0 => none
  | index + 1 => ((linesOf template.toList)[index]?).map Line.ofChars

/-- The text of the generated lines that no template line stands behind. -/
def ViewSource.unmapped (source : ViewSource) : List Char :=
  ((linesOf source.code.toList).zip source.origins).filter (·.2.isNone) |>.flatMap (·.1)

/-- Generated source with a map to its template that is exact. -/
structure MapsBack (name : ViewName) (inputs : Inputs) (template : String) (source : ViewSource) :
    Prop where
  ends : source.code.toList.getLast? = some '\n'
  counts : source.code.toList.count '\n' = source.origins.length
  increasing : (source.origins.filterMap id).Pairwise (· < ·)
  mapped : ∀ n, some n ∈ source.origins ↔ ∃ line, lineAt? template n = some line ∧ PutsOut n line
  statements : ∀ index n : Nat, source.origins[index]? = some (some n) → ∃ line parts,
    lineAt? template n = some line ∧ readParts n line.content = .ok parts ∧
    (linesOf source.code.toList)[index]? = some
      (List.replicate (4 * (name.modules.length + 2)) ' ' ++
        (lineStatements parts line.terminator).toList ++ ['\n'])
  frame : ∃ bare, generate name inputs "" = .ok bare ∧ source.unmapped = bare.code.toList

theorem lineAt?_eq_some_iff {template : String} {n : Nat} {line : Line} :
    lineAt? template n = some line ↔
      ∃ raw, (raw, n) ∈ (linesOf template.toList).zipIdx 1 ∧ Line.ofChars raw = line := by
  cases n with
  | zero => simp [lineAt?, List.mk_mem_zipIdx_iff_le_and_getElem?_sub]
  | succ index => simp [lineAt?, List.mk_mem_zipIdx_iff_le_and_getElem?_sub]

theorem generate_eq_ok_iff {name : ViewName} {inputs : Inputs} {template : String}
    {source : ViewSource} :
    generate name inputs template = .ok source ↔
      ∃ body, BodyFrom 1 (linesOf template.toList) body ∧
        ViewSource.ofBody name inputs body = source := by
  rw [generate, map_eq_ok_iff]
  simp only [bodyLines_eq_ok_iff]

theorem SourceLine.OnOneLine.chars {line : SourceLine} (h : line.OnOneLine) :
    ∃ cs, '\n' ∉ cs ∧ line.chars = cs ++ ['\n'] := by
  by_cases htext : line.text = ""
  · exact ⟨[], by simp, if_pos htext⟩
  · refine ⟨List.replicate (4 * line.depth) ' ' ++ line.text.toList, ?_, if_neg htext⟩
    simp only [List.mem_append, not_or]
    exact ⟨by simp, h⟩

section Lines

variable {name : String} {lines : List SourceLine}

theorem toList_code_ofLines : (ViewSource.ofLines name lines).code.toList =
    (lines.map SourceLine.chars).flatten := by
  rw [ViewSource.ofLines, String.toList_ofList, List.flatMap_def]

theorem linesOf_ofLines (h : ∀ line ∈ lines, line.OnOneLine) :
    linesOf (ViewSource.ofLines name lines).code.toList = lines.map SourceLine.chars := by
  rw [toList_code_ofLines]
  refine linesOf_flatten fun chars hchars => ?_
  obtain ⟨line, hline, rfl⟩ := List.mem_map.mp hchars
  exact (h line hline).chars

theorem count_ofLines (h : ∀ line ∈ lines, line.OnOneLine) :
    (ViewSource.ofLines name lines).code.toList.count '\n' =
      (ViewSource.ofLines name lines).origins.length := by
  rw [toList_code_ofLines, ViewSource.ofLines, List.length_map]
  induction lines with
  | nil => rfl
  | cons line lines ih =>
    obtain ⟨cs, hcs, hline⟩ := (h line (by simp)).chars
    have hrest := ih fun l hl => h l (by simp [hl])
    rw [List.map_cons, List.flatten_cons, List.count_append, hrest, hline, List.count_append,
      List.count_eq_zero.mpr hcs, List.count_singleton_self, List.length_cons]
    omega

theorem getLast?_ofLines (h : ∀ line ∈ lines, line.OnOneLine) (hne : lines ≠ []) :
    (ViewSource.ofLines name lines).code.toList.getLast? = some '\n' := by
  obtain ⟨cs, -, hlast⟩ := (h _ (List.getLast_mem hne)).chars
  rw [toList_code_ofLines, ← List.dropLast_concat_getLast hne, List.map_append, List.flatten_append,
    List.map_singleton, List.flatten_singleton, hlast, ← List.append_assoc, List.getLast?_concat]

theorem unmapped_ofLines (h : ∀ line ∈ lines, line.OnOneLine) :
    (ViewSource.ofLines name lines).unmapped =
      ((lines.filter (·.origin.isNone)).map SourceLine.chars).flatten := by
  rw [ViewSource.unmapped, linesOf_ofLines h, ViewSource.ofLines, List.zip_map', List.filter_map,
    List.flatMap_map, List.flatMap_def]
  rfl

end Lines

namespace BodyFrom

theorem onOneLine {text : List Char} {body : List SourceLine}
    (h : BodyFrom 1 (linesOf text) body) : ∀ line ∈ body, line.OnOneLine := by
  intro line hline
  obtain ⟨⟨raw, n⟩, hraw, hbody⟩ := h.mem_iff.mp hline
  obtain ⟨-, parts, hparts, rfl⟩ := bodyLine?_eq_some_iff.mp hbody
  exact newline_not_mem_lineStatements hparts
    (Line.newline_not_mem_content (List.fst_mem_of_mem_zipIdx hraw))

/-- The line of a body with a number holds the statements of the template line there. -/
theorem mem_and_origin_iff {template : String} {body : List SourceLine}
    (h : BodyFrom 1 (linesOf template.toList) body) {line : SourceLine} {n : Nat} :
    line ∈ body ∧ line.origin = some n ↔ ∃ source parts,
      lineAt? template n = some source ∧ PutsOut n source ∧
      readParts n source.content = .ok parts ∧
      line = { text := lineStatements parts source.terminator, origin := some n } := by
  constructor
  · rintro ⟨hline, horigin⟩
    obtain ⟨⟨raw, m⟩, hraw, hbody⟩ := h.mem_iff.mp hline
    obtain ⟨hputs, parts, hparts, rfl⟩ := bodyLine?_eq_some_iff.mp hbody
    obtain rfl : m = n := Option.some.inj horigin
    exact ⟨_, parts, lineAt?_eq_some_iff.mpr ⟨raw, hraw, rfl⟩, hputs, hparts, rfl⟩
  · rintro ⟨source, parts, hsource, hputs, hparts, rfl⟩
    obtain ⟨raw, hraw, rfl⟩ := lineAt?_eq_some_iff.mp hsource
    have hbody := bodyLine?_eq_some_iff.mpr ⟨hputs, parts, hparts, rfl⟩
    exact ⟨h.mem_iff.mpr ⟨(raw, n), hraw, hbody⟩, rfl⟩

end BodyFrom

theorem filterMap_origin_of_isScaffold {lines : List SourceLine}
    (h : ∀ line ∈ lines, line.IsScaffold) : lines.filterMap SourceLine.origin = [] :=
  List.filterMap_eq_nil_iff.mpr fun line hline => (h line hline).1

theorem filter_unmapped_of_isScaffold {lines : List SourceLine}
    (h : ∀ line ∈ lines, line.IsScaffold) : lines.filter (·.origin.isNone) = lines := by
  refine List.filter_eq_self.mpr fun line hline => ?_
  rw [(h line hline).1]
  rfl

section Crate

variable {name : ViewName} {inputs : Inputs} {body : List SourceLine}

theorem onOneLine_crateLines (hname : StayOnLine name inputs)
    (hbody : ∀ line ∈ body, line.OnOneLine) :
    ∀ line ∈ crateLines name inputs body, line.OnOneLine := by
  obtain ⟨before, after, hframe, hlayout⟩ := isFrame_crateLines hname
  simp only [hlayout, List.forall_mem_append, List.forall_mem_map] at hframe ⊢
  exact ⟨⟨fun line hline => (hframe.1 line hline).2, hbody⟩,
    fun line hline => (hframe.2 line hline).2⟩

/-- A mapped line of a crate is a line of the body at the depth of the frame. -/
theorem mem_crateLines_of_origin (hname : StayOnLine name inputs) {line : SourceLine} {n : Nat}
    (hline : line ∈ crateLines name inputs body) (horigin : line.origin = some n) :
    ∃ inner ∈ body, inner.deepen (name.modules.length + 2) = line := by
  obtain ⟨before, after, hframe, hlayout⟩ := isFrame_crateLines hname
  have hnot : line ∉ before ++ after := by
    intro hmem
    rw [(hframe line hmem).1] at horigin
    cases horigin
  simp only [List.mem_append, not_or] at hnot
  rw [hlayout, List.mem_append, List.mem_append] at hline
  rcases hline with (hbefore | hbody) | hafter
  · exact absurd hbefore hnot.1
  · exact List.mem_map.mp hbody
  · exact absurd hafter hnot.2

theorem origins_ofBody (hname : StayOnLine name inputs) :
    (ViewSource.ofBody name inputs body).origins.filterMap id =
      body.filterMap SourceLine.origin := by
  obtain ⟨before, after, hframe, hlayout⟩ := isFrame_crateLines hname
  rw [List.forall_mem_append] at hframe
  have horigins : (ViewSource.ofBody name inputs body).origins.filterMap id =
      (crateLines name inputs body).filterMap SourceLine.origin := List.filterMap_map
  rw [horigins, hlayout, List.filterMap_append, List.filterMap_append,
    filterMap_origin_of_isScaffold hframe.1, filterMap_origin_of_isScaffold hframe.2,
    List.filterMap_map, List.nil_append, List.append_nil]
  rfl

theorem filter_unmapped_crateLines (hname : StayOnLine name inputs)
    (hbody : ∀ line ∈ body, ∃ n, line.origin = some n) :
    (crateLines name inputs body).filter (·.origin.isNone) = crateLines name inputs [] := by
  obtain ⟨before, after, hframe, hlayout⟩ := isFrame_crateLines hname
  rw [List.forall_mem_append] at hframe
  have hmapped : (body.map (·.deepen (name.modules.length + 2))).filter (·.origin.isNone) = [] := by
    refine List.filter_eq_nil_iff.mpr fun line hline => ?_
    obtain ⟨inner, hinner, rfl⟩ := List.mem_map.mp hline
    obtain ⟨n, hn⟩ := hbody inner hinner
    simp [SourceLine.deepen, hn]
  rw [hlayout, hlayout, List.filter_append, List.filter_append,
    filter_unmapped_of_isScaffold hframe.1, filter_unmapped_of_isScaffold hframe.2, hmapped,
    List.map_nil]

end Crate

section Generated

variable {name : ViewName} {inputs : Inputs} {template : String} {body : List SourceLine}

theorem some_mem_origins_iff (hname : StayOnLine name inputs)
    (hbody : BodyFrom 1 (linesOf template.toList) body) {n : Nat} :
    some n ∈ (ViewSource.ofBody name inputs body).origins ↔
      ∃ line, lineAt? template n = some line ∧ PutsOut n line := by
  have hmem : some n ∈ (ViewSource.ofBody name inputs body).origins ↔
      ∃ line, line ∈ body ∧ line.origin = some n := by
    rw [← List.mem_filterMap, ← origins_ofBody hname]
    simp
  rw [hmem]
  constructor
  · rintro ⟨line, hline⟩
    obtain ⟨source, -, hsource, hputs, -⟩ := hbody.mem_and_origin_iff.mp hline
    exact ⟨source, hsource, hputs⟩
  · rintro ⟨source, hsource, hputs⟩
    obtain ⟨parts, hparts, -⟩ := hputs.2
    exact ⟨_, hbody.mem_and_origin_iff.mpr ⟨source, parts, hsource, hputs, hparts, rfl⟩⟩

theorem line_of_origins (hname : StayOnLine name inputs)
    (hbody : BodyFrom 1 (linesOf template.toList) body) {index n : Nat}
    (hindex : (ViewSource.ofBody name inputs body).origins[index]? = some (some n)) :
    ∃ line parts, lineAt? template n = some line ∧ readParts n line.content = .ok parts ∧
      (linesOf (ViewSource.ofBody name inputs body).code.toList)[index]? = some
        (List.replicate (4 * (name.modules.length + 2)) ' ' ++
          (lineStatements parts line.terminator).toList ++ ['\n']) := by
  obtain ⟨line, hline, horigin⟩ := Option.map_eq_some_iff.mp (List.getElem?_map.symm.trans hindex)
  obtain ⟨inner, hinner, rfl⟩ := mem_crateLines_of_origin hname (List.mem_of_getElem? hline) horigin
  obtain ⟨source, parts, hsource, hputs, hparts, rfl⟩ :=
    hbody.mem_and_origin_iff.mp ⟨hinner, horigin⟩
  have htext := hputs.lineStatements_ne hparts
  have hlines := onOneLine_crateLines hname hbody.onOneLine
  refine ⟨source, parts, hsource, hparts, ?_⟩
  rw [ViewSource.ofBody, linesOf_ofLines hlines, List.getElem?_map, hline, Option.map_some,
    SourceLine.chars, SourceLine.deepen, if_neg htext, Nat.zero_add]

theorem unmapped_ofBody (hname : StayOnLine name inputs)
    (hbody : BodyFrom 1 (linesOf template.toList) body) :
    (ViewSource.ofBody name inputs body).unmapped =
      (ViewSource.ofBody name inputs []).code.toList := by
  have hlines := onOneLine_crateLines hname hbody.onOneLine
  have hnumbered : ∀ line ∈ body, ∃ n, line.origin = some n := fun line hline =>
    (hbody.origin_of_mem hline).imp fun _ hn => hn.2
  rw [ViewSource.ofBody, ViewSource.ofBody, unmapped_ofLines hlines, toList_code_ofLines,
    filter_unmapped_crateLines hname hnumbered]

end Generated

/-- The map of every view that is generated is exact. -/
theorem mapsBack_of_generate {name : ViewName} {inputs : Inputs} {template : String}
    {source : ViewSource} (hname : StayOnLine name inputs)
    (h : generate name inputs template = .ok source) : MapsBack name inputs template source := by
  obtain ⟨body, hbody, rfl⟩ := generate_eq_ok_iff.mp h
  have hlines := onOneLine_crateLines hname hbody.onOneLine
  have hbare : generate name inputs "" = .ok (.ofBody name inputs []) :=
    generate_eq_ok_iff.mpr ⟨[], .nil, rfl⟩
  exact {
    ends := getLast?_ofLines hlines (by simp [crateLines])
    counts := count_ofLines hlines
    increasing := by
      rw [origins_ofBody hname]
      exact hbody.pairwise_origins
    mapped := fun n => some_mem_origins_iff hname hbody
    statements := fun index n hindex => line_of_origins hname hbody hindex
    frame := ⟨_, hbare, unmapped_ofBody hname hbody⟩ }

/-- A declaration and a blank last line without terminator stay unmapped. -/
theorem mapsBack_home :
    StayOnLine ⟨"site::pages", "Home"⟩ ⟨some "Page", none⟩ ∧
    ∃ source, generate ⟨"site::pages", "Home"⟩ ⟨some "Page", none⟩
        "@model Page\r\nHi @name\n@{ }\r\n\n@{ }" = .ok source ∧
      source.origins.filterMap id = [2, 3, 4] ∧
      MapsBack ⟨"site::pages", "Home"⟩ ⟨some "Page", none⟩
        "@model Page\r\nHi @name\n@{ }\r\n\n@{ }" source := by
  have hname : StayOnLine ⟨"site::pages", "Home"⟩ ⟨some "Page", none⟩ :=
    { scope := by decide, type := by decide, model := by decide, handler := by decide }
  have horigins : (generate ⟨"site::pages", "Home"⟩ ⟨some "Page", none⟩
      "@model Page\r\nHi @name\n@{ }\r\n\n@{ }").map (·.origins.filterMap id) =
        .ok [2, 3, 4] := by decide +kernel
  obtain ⟨source, hsource, hmapped⟩ := map_eq_ok_iff.mp horigins
  exact ⟨hname, source, hsource, hmapped, mapsBack_of_generate hname hsource⟩

end TemplateViews
