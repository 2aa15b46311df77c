import TemplateViews.Proofs.Source.Body
import TemplateViews.Proofs.Text.Literal
import TemplateViews.Proofs.Text.Split

/-! The statements on a line of the body. A line holds one statement for each part of its
template line, in order, and one for the terminator; statements that write texts can be
read back, and write the texts they were made from. -/

namespace TemplateViews

open Markup

def Terminator.part? : Terminator → Option Part
  | .absent => none
  | terminator => some (.text (String.ofList terminator.chars))

/-- The parts of a line, its terminator last. -/
def withTerminator (parts : List Part) (terminator : Terminator) : List Part :=
  parts ++ terminator.part?.toList

/-- A statement that puts a part on the page: a literal that stands for a text, or an
expression or code as it is. -/
def Markup.Part.StatedAs (statement : List Char) : Part → Prop
  | .text chars => ∃ literal, readLiteral literal = some (chars.toList, []) ∧
    statement = "__out.write_str(".toList ++ literal ++ ")?;".toList
  | .value expression =>
    statement = "::std::write!(__out, \"\x7b\x7d\", ".toList ++ expression.toList ++ ")?;".toList
  | .statements code => statement = code.toList

/-- The text that a statement at the start of a source writes, and the source behind it. -/
def readWrite (source : List Char) : Option (List Char × List Char) := do
  let source ← "__out.write_str(".toList.isPrefixOf? source
  let (text, source) ← readLiteral source
  let source ← ")?;".toList.isPrefixOf? source
  return (text, source)

section Reading

variable {front source rest text : List Char}

theorem isPrefixOf?_append (front rest : List Char) :
    front.isPrefixOf? (front ++ rest) = some rest := by
  induction front with
  | nil => rfl
  | cons c front ih => simp [List.isPrefixOf?, ih]

theorem length_isPrefixOf? (h : front.isPrefixOf? source = some rest) :
    rest.length ≤ source.length := by
  induction front generalizing source with
  | nil =>
    obtain rfl : source = rest := by simpa [List.isPrefixOf?] using h
    exact Nat.le_refl _
  | cons c front ih =>
    cases source with
    | nil => simp [List.isPrefixOf?] at h
    | cons d source =>
      simp only [List.isPrefixOf?] at h
      split at h
      · exact (ih h).trans (Nat.le_succ _)
      · cases h

theorem length_readWrite (h : readWrite source = some (text, rest)) :
    rest.length < source.length := by
  simp only [readWrite, Option.bind_eq_bind, Option.bind_eq_some_iff] at h
  obtain ⟨argument, hargument, ⟨chars, behind⟩, hliteral, last, hlast, he⟩ := h
  obtain ⟨-, rfl⟩ := by simpa using he
  exact ((length_isPrefixOf? hlast).trans_lt (length_readLiteral hliteral)).trans_le
    (length_isPrefixOf? hargument)

end Reading

/-- The text that a source of statements writes, blanks between them aside; none if it
holds anything else. -/
def readWrites (source : List Char) : Option (List Char) :=
  match _hstart : trimStart source with
  | [] => some []
  | c :: cs =>
    match _hread : readWrite (c :: cs) with
    | none => none
    | some (text, rest) => (readWrites rest).map (text ++ ·)
termination_by source.length
decreasing_by
  have hle := (List.dropWhile_sublist (l := source) isBlank).length_le
  rw [show source.dropWhile isBlank = c :: cs from _hstart] at hle
  exact (length_readWrite _hread).trans_le hle

theorem readWrites_eq (source : List Char) :
    readWrites source = if trimStart source = [] then some [] else
      (readWrite (trimStart source)).bind fun read => (readWrites read.2).map (read.1 ++ ·) := by
  rw [readWrites]
  split
  · next hstart => rw [if_pos hstart]
  · next hstart =>
    rw [hstart, if_neg (List.cons_ne_nil _ _)]
    split
    · next hread => rw [hread]; rfl
    · next hread => rw [hread]; rfl

theorem readWrites_nil : readWrites [] = some [] := by rw [readWrites_eq, if_pos (by rfl)]

theorem readWrites_blanks {before source : List Char} (h : ∀ c ∈ before, isBlank c = true) :
    readWrites (before ++ source) = readWrites source := by
  have hstart : trimStart (before ++ source) = trimStart source := List.dropWhile_append_of_pos h
  rw [readWrites_eq, hstart, ← readWrites_eq]

theorem readWrite_writeText (text : String) (rest : List Char) :
    readWrite ((writeText text).toList ++ rest) = some (text.toList, rest) := by
  rw [toList_writeText, List.append_assoc, List.append_assoc, readWrite, isPrefixOf?_append]
  have hend := isPrefixOf?_append ")?;".toList rest
  simp only [Option.bind_eq_bind, Option.bind_some, readLiteral_quoted, hend]
  rfl

theorem readWrites_writeText (text : String) (rest : List Char) :
    readWrites ((writeText text).toList ++ rest) = (readWrites rest).map (text.toList ++ ·) := by
  have hstart : trimStart ((writeText text).toList ++ rest) = (writeText text).toList ++ rest := by
    rw [toList_writeText]
    rfl
  have hne : (writeText text).toList ++ rest ≠ [] := by
    rw [toList_writeText]
    exact List.cons_ne_nil _ _
  rw [readWrites_eq, hstart, if_neg hne, readWrite_writeText, Option.bind_some]

theorem isBlank_of_mem_space : ∀ c ∈ [' '], isBlank c = true :=
  List.forall_mem_singleton.mpr (by decide)

theorem readWrites_joinWith (texts : List String) (rest : List Char) :
    readWrites (joinWith [' '] (texts.map fun text => (writeText text).toList) ++ rest) =
      (readWrites rest).map (texts.flatMap String.toList ++ ·) := by
  induction texts with
  | nil => simp [joinWith]
  | cons text texts ih =>
    by_cases hnil : texts = []
    · subst hnil
      simpa [joinWith] using readWrites_writeText text rest
    · rw [List.map_cons, joinWith_cons (by simpa using hnil), List.append_assoc, List.append_assoc,
        readWrites_writeText, readWrites_blanks isBlank_of_mem_space, ih, Option.map_map]
      simp [Function.comp_def]

namespace Markup

theorem Part.statedAs_statement (part : Part) : part.StatedAs part.statement.toList := by
  cases part with
  | text chars =>
    have hliteral := readLiteral_quoted chars []
    rw [List.append_nil] at hliteral
    exact ⟨_, hliteral, toList_writeText chars⟩
  | value expression => exact toList_statement_value expression
  | statements code => rfl

end Markup

theorem flatMap_append_eq_joinWith (separator : List Char) (pieces : List (List Char))
    (last : List Char) :
    pieces.flatMap (· ++ separator) ++ last = joinWith separator (pieces ++ [last]) := by
  induction pieces with
  | nil => rfl
  | cons piece pieces ih =>
    rw [List.cons_append, joinWith_cons (by simp), ← ih]
    simp

theorem trimEnd_flatMap_append (separator : List Char) (pieces : List (List Char))
    {last after : List Char} (hlast : ∃ c, last.getLast? = some c ∧ isBlank c = false)
    (hafter : ∀ c ∈ after, isBlank c = true) :
    trimEnd (pieces.flatMap (· ++ separator) ++ last ++ after) =
      joinWith separator (pieces ++ [last]) := by
  obtain ⟨c, hc, hvisible⟩ := hlast
  rw [← flatMap_append_eq_joinWith]
  refine trimEnd_blanks hafter fun d hd => ?_
  rw [List.getLast?_append, hc] at hd
  obtain rfl : c = d := by simpa using hd
  exact hvisible

theorem Terminator.part?_cases (terminator : Terminator) :
    terminator.part? = none ∧ terminator.statement? = none ∨
      ∃ text, terminator.part? = some (.text text) ∧
        terminator.statement? = some (writeText text) := by
  cases terminator with
  | absent => exact .inl ⟨rfl, rfl⟩
  | lineFeed => exact .inr ⟨_, rfl, rfl⟩
  | returnLineFeed => exact .inr ⟨_, rfl, rfl⟩

/-- A line holds the statements of its parts, with a blank between any two. -/
theorem toList_lineStatements {number : Nat} {content : List Char} {parts : List Part}
    (h : readParts number content = .ok parts) (terminator : Terminator) :
    (lineStatements parts terminator).toList =
      joinWith [' '] ((withTerminator parts terminator).map (·.statement.toList)) := by
  have hflat : parts.flatMap (fun part => part.statement.toList ++ [' ']) =
      (parts.map (·.statement.toList)).flatMap (· ++ [' ']) := by rw [List.flatMap_map]
  rw [lineStatements, String.toList_ofList, hflat]
  rcases terminator.part?_cases with ⟨hpart, hstatement⟩ | ⟨text, hpart, hstatement⟩
  · rw [withTerminator, hpart, hstatement]
    rcases List.eq_nil_or_concat' parts with rfl | ⟨init, last, rfl⟩
    · rfl
    · have hmem : last ∈ init ++ [last] := List.mem_append_right _ (List.mem_singleton_self last)
      obtain ⟨piece, hpiece, -⟩ := exists_piece_of_mem h hmem
      have htrim := trimEnd_flatMap_append [' '] (init.map (·.statement.toList))
        (Piece.exists_getLast hpiece) isBlank_of_mem_space
      simpa only [Option.toList_none, Option.getD_none, String.toList_empty, List.append_nil,
        List.map_append, List.map_cons, List.map_nil, List.flatMap_append, List.flatMap_singleton,
        List.append_assoc] using htrim
  · have hlast : ∃ c, (writeText text).toList.getLast? = some c ∧ isBlank c = false :=
      ⟨';', getLast?_writeText text, by decide⟩
    have htrim := trimEnd_flatMap_append [' '] (parts.map (·.statement.toList)) hlast
      (List.forall_mem_nil (isBlank · = true))
    rw [List.append_nil] at htrim
    rw [withTerminator, hpart, hstatement, List.map_append]
    exact htrim

end TemplateViews
