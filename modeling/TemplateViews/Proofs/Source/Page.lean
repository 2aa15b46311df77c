import Mathlib.Data.List.Forall2
import TemplateViews.Proofs.Source.LineMap
import TemplateViews.Proofs.Source.Mapped
import TemplateViews.Proofs.Source.Statements

/-! What generated source writes is what the template says. The statements on a mapped line
are those of its template line, and where these hold texts only, what all of them write is
the template with its markup taken back. -/

namespace TemplateViews

open Markup

/-- The generated lines that template lines stand behind, as they stand in the code. -/
def ViewSource.mappedLines (source : ViewSource) : List (List Char) :=
  ((linesOf source.code.toList).zip source.origins).filter (·.2.isSome) |>.map (·.1)

/-- Lines of markup, if they declare nothing, are texts. -/
def TextOnly (template : String) : Prop :=
  ∀ n line, lineAt? template n = some line → declares line.content = false →
    ∃ texts : List String, readParts n line.content = .ok (texts.map .text)

def undeclared (text : List Char) : List Char :=
  ((linesOf text).filter fun raw => !declares (Line.ofChars raw).content).flatten

/-- A pass from the left that halves `@@`. -/
def halveAts : List Char → List Char
  | '@' :: '@' :: cs => '@' :: halveAts cs
  | c :: cs => c :: halveAts cs
  | [] => []

/-- A pass from the left that halves `@@` and leaves out blank blocks of code. -/
def takeBack : List Char → List Char
  | [] => []
  | '@' :: '@' :: cs => '@' :: takeBack cs
  | '@' :: '{' :: cs =>
    match _h : cs.dropWhile isBlank with
    | '}' :: rest => takeBack rest
    | _ => '@' :: '{' :: takeBack cs
  | c :: cs => c :: takeBack cs
termination_by cs => cs.length
decreasing_by
  · simp only [List.length_cons]
    omega
  · have hle := (List.dropWhile_sublist (l := cs) isBlank).length_le
    rw [_h] at hle
    simp only [List.length_cons] at hle ⊢
    omega
  · simp only [List.length_cons]
    omega
  · exact Nat.lt_succ_self _

section TakeBack

variable {text body content : List Char}

theorem takeBack_append (h : '@' ∉ text) (rest : List Char) :
    takeBack (text ++ rest) = text ++ takeBack rest := by
  induction text with
  | nil => rfl
  | cons c text ih =>
    have hc : c ≠ '@' := fun hc => h (by simp [hc])
    have htext : '@' ∉ text := fun htext => h (by simp [htext])
    rw [List.cons_append, takeBack, ih htext]
    · rfl
    all_goals
      intros
      exact absurd ‹c = '@'› hc

theorem takeBack_blank (h : ∀ c ∈ body, isBlank c = true) (rest : List Char) :
    takeBack ('@' :: '{' :: (body ++ '}' :: rest)) = takeBack rest := by
  have hdrop : (body ++ '}' :: rest).dropWhile isBlank = '}' :: rest :=
    dropWhile_append_of_head h fun c hc => by
      obtain rfl : '}' = c := by simpa using hc
      decide
  rw [takeBack]
  split
  · next he =>
    rw [hdrop] at he
    rw [(List.cons.inj he).2]
  · next hne => exact absurd hdrop (hne rest)

theorem takeBack_of_decomposes {pieces : List Piece} {texts : List String}
    (h : Decomposes content pieces) (hmeans : Means pieces (texts.map .text)) (rest : List Char) :
    takeBack (content ++ rest) = texts.flatMap String.toList ++ takeBack rest := by
  induction h generalizing texts with
  | nil =>
    obtain rfl : texts = [] := by simpa using means_iff.mp hmeans
    rfl
  | @cons piece behind pieces hfits hpieces ih =>
    rw [List.append_assoc]
    generalize hparts : texts.map Part.text = parts at hmeans
    cases hmeans with
    | run text hmeans =>
      obtain ⟨first, texts, rfl, hfirst, rfl⟩ := List.map_eq_cons_iff.mp hparts
      obtain rfl := Part.text.inj hfirst
      rw [Piece.written, takeBack_append hfits.2.1, ih hmeans]
      simp
    | atSign hmeans =>
      obtain ⟨first, texts, rfl, hfirst, rfl⟩ := List.map_eq_cons_iff.mp hparts
      obtain rfl := Part.text.inj hfirst
      show takeBack ('@' :: '@' :: (behind ++ rest)) =
        '@' :: (texts.flatMap String.toList ++ takeBack rest)
      rw [takeBack, ih hmeans]
    | expression body hmeans =>
      obtain ⟨first, texts, -, hfirst, -⟩ := List.map_eq_cons_iff.mp hparts
      cases hfirst
    | code hbody hmeans =>
      obtain ⟨first, texts, -, hfirst, -⟩ := List.map_eq_cons_iff.mp hparts
      cases hfirst
    | @blank _ _ body hbody hmeans =>
      -- the block means nothing, so no text stands for it
      subst hparts
      obtain ⟨before, after, hbefore, hafter, he⟩ := exists_blanks_trim body
      have hblank : ∀ c ∈ body, isBlank c = true := by
        rw [he, hbody, List.append_nil]
        exact List.forall_mem_append.mpr ⟨hbefore, hafter⟩
      have hwritten : (Piece.code body).written ++ (behind ++ rest) =
          '@' :: '{' :: (body ++ '}' :: (behind ++ rest)) := by simp [Piece.written]
      rw [hwritten, takeBack_blank hblank, ih hmeans]
    | path names hmeans =>
      obtain ⟨first, texts, -, hfirst, -⟩ := List.map_eq_cons_iff.mp hparts
      cases hfirst

end TakeBack

theorem exists_withTerminator_eq (texts : List String) (terminator : Terminator) :
    ∃ all : List String, withTerminator (texts.map .text) terminator = all.map .text ∧
      all.flatMap String.toList = texts.flatMap String.toList ++ terminator.chars := by
  have hends {text : String} (hpart : terminator.part? = some (.text text))
      (hchars : text.toList = terminator.chars) :
      ∃ all : List String, withTerminator (texts.map .text) terminator = all.map .text ∧
        all.flatMap String.toList = texts.flatMap String.toList ++ terminator.chars :=
    ⟨texts ++ [text], by simp [withTerminator, hpart], by simp [hchars]⟩
  cases terminator with
  | absent => exact ⟨texts, by simp [withTerminator, Terminator.part?], by simp [Terminator.chars]⟩
  | lineFeed => exact hends rfl (String.toList_ofList)
  | returnLineFeed => exact hends rfl (String.toList_ofList)

/-- What a line of texts puts on the page is what its statements write. -/
theorem exists_texts_of_line {number : Nat} {line : Line} {texts : List String}
    (h : readParts number line.content = .ok (texts.map .text)) :
    ∃ all : List String,
      (∀ rest, takeBack (line.chars ++ rest) = all.flatMap String.toList ++ takeBack rest) ∧
      (lineStatements (texts.map .text) line.terminator).toList =
        joinWith [' '] (all.map fun text => (writeText text).toList) := by
  obtain ⟨pieces, hpieces, hmeans⟩ := readParts_eq_ok_iff.mp h
  obtain ⟨all, hall, hchars⟩ := exists_withTerminator_eq texts line.terminator
  have hterminator : '@' ∉ line.terminator.chars := by
    cases line.terminator <;> decide
  refine ⟨all, fun rest => ?_, ?_⟩
  · rw [Line.chars, List.append_assoc, takeBack_of_decomposes hpieces hmeans,
      takeBack_append hterminator, hchars, List.append_assoc]
  · rw [toList_lineStatements h, hall, List.map_map]
    rfl

def TextFrom (number : Nat) (raws : List (List Char)) : Prop :=
  ∀ entry ∈ raws.zipIdx number, declares (Line.ofChars entry.1).content = false →
    ∃ texts : List String, readParts entry.2 (Line.ofChars entry.1).content = .ok (texts.map .text)

theorem textOnly_iff {template : String} :
    TextOnly template ↔ TextFrom 1 (linesOf template.toList) := by
  constructor
  · rintro h ⟨raw, n⟩ hraw
    exact h n _ (lineAt?_eq_some_iff.mpr ⟨raw, hraw, rfl⟩)
  · intro h n line hline
    obtain ⟨raw, hraw, rfl⟩ := lineAt?_eq_some_iff.mp hline
    exact h (raw, n) hraw

theorem textFrom_cons_iff {number : Nat} {raw : List Char} {raws : List (List Char)} :
    TextFrom number (raw :: raws) ↔
      (declares (Line.ofChars raw).content = false →
        ∃ texts : List String, readParts number (Line.ofChars raw).content = .ok (texts.map .text)) ∧
      TextFrom (number + 1) raws := by
  rw [TextFrom, List.zipIdx_cons, List.forall_mem_cons]
  rfl

theorem TextFrom.exists_body {number : Nat} {raws : List (List Char)} (h : TextFrom number raws) :
    ∃ body, BodyFrom number raws body := by
  induction raws generalizing number with
  | nil => exact ⟨[], .nil⟩
  | cons raw raws ih =>
    obtain ⟨hraw, hraws⟩ := textFrom_cons_iff.mp h
    obtain ⟨body, hbody⟩ := ih hraws
    have hline : ∃ line?, bodyLine? number raw = .ok line? := by
      cases hdeclares : declares (Line.ofChars raw).content with
      | true => exact ⟨none, by simp [bodyLine?, hdeclares]⟩
      | false =>
        obtain ⟨texts, htexts⟩ := hraw hdeclares
        simp [bodyLine?, hdeclares, htexts]
    obtain ⟨line?, hline⟩ := hline
    cases line? with
    | none => exact ⟨body, .silent hline hbody⟩
    | some line => exact ⟨line :: body, .line hline hbody⟩

theorem exists_blanks_chars (line : SourceLine) :
    ∃ before, (∀ c ∈ before, isBlank c = true) ∧
      line.chars = before ++ line.text.toList ++ ['\n'] := by
  by_cases htext : line.text = ""
  · exact ⟨[], by simp, by simp [SourceLine.chars, htext]⟩
  · refine ⟨List.replicate (4 * line.depth) ' ', fun c hc => ?_, if_neg htext⟩
    rw [List.eq_of_mem_replicate hc]
    decide

theorem readWrites_chars (line : SourceLine) {texts : List String}
    (h : line.text.toList = joinWith [' '] (texts.map fun text => (writeText text).toList))
    (rest : List Char) :
    readWrites (line.chars ++ rest) = (readWrites rest).map (texts.flatMap String.toList ++ ·) := by
  obtain ⟨before, hbefore, hchars⟩ := exists_blanks_chars line
  have hend : ∀ c ∈ ['\n'], isBlank c = true := Terminator.isBlank_of_mem .lineFeed
  rw [hchars, h, List.append_assoc, List.append_assoc, readWrites_blanks hbefore,
    readWrites_joinWith, readWrites_blanks hend]

theorem flatMap_eq_nil_of_joinWith {texts : List String}
    (h : joinWith [' '] (texts.map fun text => (writeText text).toList) = []) :
    texts.flatMap String.toList = [] := by
  have hread := readWrites_joinWith texts []
  rw [h, List.nil_append, readWrites_nil, Option.map_some] at hread
  simpa using (Option.some.inj hread).symm

theorem BodyFrom.readWrites_flatMap {number : Nat} {raws : List (List Char)} {body : List SourceLine}
    (h : BodyFrom number raws body) (htext : TextFrom number raws) (depth : Nat) :
    readWrites ((body.map (·.deepen depth)).flatMap SourceLine.chars) = some (takeBack
      (raws.filter fun raw => !declares (Line.ofChars raw).content).flatten) := by
  induction h with
  | nil => simp [readWrites_nil, takeBack]
  | @silent number raw raws body hline h ih =>
    -- no line of the body: the template line declares something or holds no text at all
    obtain ⟨hraw, hraws⟩ := textFrom_cons_iff.mp htext
    rw [ih hraws]
    cases hdeclares : declares (Line.ofChars raw).content with
    | true => simp [hdeclares]
    | false =>
      obtain ⟨texts, htexts⟩ := hraw hdeclares
      obtain ⟨all, hpage, hstatements⟩ := exists_texts_of_line htexts
      have hempty : lineStatements (texts.map .text) (Line.ofChars raw).terminator = "" := by
        simpa [bodyLine?, hdeclares, htexts] using hline
      rw [hempty] at hstatements
      rw [Line.chars_ofChars] at hpage
      simp [hdeclares, hpage, flatMap_eq_nil_of_joinWith hstatements.symm]
  | @line number raw raws line body hline h ih =>
    obtain ⟨hraw, hraws⟩ := textFrom_cons_iff.mp htext
    obtain ⟨⟨hdeclares, -⟩, parts, hparts, rfl⟩ := bodyLine?_eq_some_iff.mp hline
    obtain ⟨texts, htexts⟩ := hraw hdeclares
    obtain rfl := Except.ok.inj (hparts.symm.trans htexts)
    obtain ⟨all, hpage, hstatements⟩ := exists_texts_of_line htexts
    rw [Line.chars_ofChars] at hpage
    have hwrites := readWrites_chars (SourceLine.deepen depth
      { text := lineStatements (texts.map .text) (Line.ofChars raw).terminator,
        origin := some number }) hstatements
    simp [hdeclares, hpage, hwrites, ih hraws]

theorem mappedLines_ofLines {name : String} {lines : List SourceLine}
    (h : ∀ line ∈ lines, line.OnOneLine) :
    (ViewSource.ofLines name lines).mappedLines = (mapped lines).map SourceLine.chars := by
  rw [ViewSource.mappedLines, linesOf_ofLines h, ViewSource.ofLines, List.zip_map', List.filter_map,
    List.map_map]
  rfl

theorem BodyFrom.mapped_eq {number : Nat} {raws : List (List Char)} {body : List SourceLine}
    (h : BodyFrom number raws body) : mapped body = body := by
  refine List.filter_eq_self.mpr fun line hline => ?_
  obtain ⟨n, -, hn⟩ := h.origin_of_mem hline
  rw [hn]
  rfl

/-- Generated lines that say what a template says. -/
structure Says (template : String) (lines : List SourceLine) : Prop where
  page : TextOnly template →
    readWrites ((mapped lines).flatMap SourceLine.chars) =
      some (takeBack (undeclared template.toList))
  ordered : (lines.filterMap SourceLine.origin).Pairwise (· < ·)
  complete : ∀ n line, lineAt? template n = some line → PutsOut n line →
    n ∈ lines.filterMap SourceLine.origin
  stated : ∀ line ∈ lines, ∀ n, line.origin = some n → ∃ source parts statements,
    lineAt? template n = some source ∧ declares source.content = false ∧
    readParts n source.content = .ok parts ∧
    List.Forall₂ (fun part statement => part.StatedAs statement)
      (withTerminator parts source.terminator) statements ∧
    line.text.toList = joinWith [' '] statements

theorem filterMap_origin_eq_mapped (lines : List SourceLine) :
    lines.filterMap SourceLine.origin = (mapped lines).filterMap SourceLine.origin := by
  rw [mapped, List.filterMap_filter]
  congr 1
  funext line
  cases horigin : line.origin <;> simp

theorem BodyFrom.says {name : ViewName} {inputs : Inputs} {template : String}
    {body : List SourceLine} (h : BodyFrom 1 (linesOf template.toList) body) :
    Says template (crateLines name inputs body) := by
  have hmapped : mapped (crateLines name inputs body) =
      body.map (·.deepen (name.modules.length + 2)) := by
    rw [mapped_crateLines, h.mapped_eq]
  have horigins : (crateLines name inputs body).filterMap SourceLine.origin =
      body.filterMap SourceLine.origin := by
    rw [filterMap_origin_eq_mapped, hmapped, List.filterMap_map]
    rfl
  constructor
  · intro htext
    rw [hmapped]
    exact h.readWrites_flatMap (textOnly_iff.mp htext) _
  · rw [horigins]
    exact h.pairwise_origins
  · intro n line hline hputs
    obtain ⟨parts, hparts, -⟩ := hputs.2
    rw [horigins, List.mem_filterMap]
    exact ⟨_, h.mem_and_origin_iff.mpr ⟨line, parts, hline, hputs, hparts, rfl⟩⟩
  · intro line hline n horigin
    have hmem : line ∈ mapped (crateLines name inputs body) :=
      List.mem_filter.mpr ⟨hline, by rw [horigin]; rfl⟩
    rw [hmapped] at hmem
    obtain ⟨inner, hinner, rfl⟩ := List.mem_map.mp hmem
    obtain ⟨source, parts, hsource, hputs, hparts, rfl⟩ := h.mem_and_origin_iff.mp ⟨hinner, horigin⟩
    refine ⟨source, parts, _, hsource, hputs.1, hparts, ?_, toList_lineStatements hparts _⟩
    rw [List.forall₂_map_right_iff]
    exact List.forall₂_same.mpr fun part _ => part.statedAs_statement

/-- A template of texts is accepted, and whatever is accepted is said by the generated lines,
which are the lines of the code unless a name or a type breaks a line of the frame. -/
theorem generate_says (name : ViewName) (inputs : Inputs) (template : String) :
    (TextOnly template → ∃ source, generate name inputs template = .ok source) ∧
    ∀ source, generate name inputs template = .ok source → ∃ lines,
      source = .ofLines name.qualified lines ∧ Says template lines ∧
      (StayOnLine name inputs → source.mappedLines = (mapped lines).map SourceLine.chars) := by
  constructor
  · intro htext
    obtain ⟨body, hbody⟩ := (textOnly_iff.mp htext).exists_body
    exact ⟨_, generate_eq_ok_iff.mpr ⟨body, hbody, rfl⟩⟩
  · intro source h
    obtain ⟨body, hbody, rfl⟩ := generate_eq_ok_iff.mp h
    exact ⟨_, rfl, hbody.says, fun hname =>
      mappedLines_ofLines (onOneLine_crateLines hname hbody.onOneLine)⟩

/-- A blank block of code is no text, and nothing is written for it. -/
theorem blank_code_not_written :
    TextOnly "a@{}b" ∧ ∃ source, generate ⟨"views", "View"⟩ ⟨none, none⟩ "a@{}b" = .ok source ∧
      readWrites source.mappedLines.flatten = some "ab".toList ∧
      "ab".toList ≠ halveAts (undeclared "a@{}b".toList) := by
  have htext : TextOnly "a@{}b" := by
    refine textOnly_iff.mpr fun entry hentry _ => ⟨["a", "b"], ?_⟩
    have hlines : (linesOf "a@{}b".toList).zipIdx 1 = [("a@{}b".toList, 1)] := by decide +kernel
    rw [hlines] at hentry
    rw [List.mem_singleton.mp hentry]
    decide +kernel
  have hname : StayOnLine ⟨"views", "View"⟩ ⟨none, none⟩ :=
    { scope := by decide, type := by decide, model := by decide, handler := by decide }
  have hback : takeBack (undeclared "a@{}b".toList) = "ab".toList := by
    have hlines : undeclared "a@{}b".toList = ['a', '@', '{', '}', 'b'] := by decide +kernel
    rw [hlines]
    calc takeBack (['a'] ++ '@' :: '{' :: ([] ++ '}' :: ['b']))
      _ = ['a'] ++ takeBack ['b'] := by
        rw [takeBack_append (by decide), takeBack_blank (List.forall_mem_nil _)]
      _ = "ab".toList := by simp [takeBack]
  obtain ⟨body, hbody⟩ := (textOnly_iff.mp htext).exists_body
  refine ⟨htext, _, generate_eq_ok_iff.mpr ⟨body, hbody, rfl⟩, ?_, by decide +kernel⟩
  rw [ViewSource.ofBody, mappedLines_ofLines (onOneLine_crateLines hname hbody.onOneLine),
    ← List.flatMap_def, hbody.says.page htext, hback]

end TemplateViews
