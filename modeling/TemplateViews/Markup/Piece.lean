import TemplateViews.Text.Blank
import TemplateViews.Text.Identifier

/-! Pieces of a markup line: runs of plain text and the constructs that an `@`
opens. Reading goes from the left and takes the longest piece each time; what was
read, written down again, is the part of the line before the rest. -/

namespace TemplateViews.Markup

inductive Piece
  /-- Text without an `@`, as far as it goes. -/
  | run (text : List Char)
  /-- `@@`, an `@` of the page. -/
  | atSign
  /-- `@(` body `)` -/
  | expression (body : List Char)
  /-- An `@` with a body in braces. -/
  | code (body : List Char)
  /-- `@` and a path of identifiers with dots between them. -/
  | path (names : List Char)
  deriving DecidableEq, Repr

def Piece.written : Piece → List Char
  | .run text => text
  | .atSign => ['@', '@']
  | .expression body => '@' :: '(' :: body ++ [')']
  | .code body => '@' :: '{' :: body ++ ['}']
  | .path names => '@' :: names

inductive Problem
  | unclosedExpression
  | emptyExpression
  | unclosedCode
  | unexpected (c : Char)
  | dangling
  deriving DecidableEq, Repr

def Problem.message : Problem → String
  | .unclosedExpression => "unclosed `@(` expression"
  | .emptyExpression => "empty `@( )` expression"
  | .unclosedCode => "unclosed `@\x7b` code block"
  | .unexpected c =>
    "unexpected `" ++ String.singleton c ++ "` after `@` (use `@@` for a literal `@`)"
  | .dangling => "dangling `@` at end of line"

def Problem.offset : Problem → Nat
  | .unexpected _ => 1
  | _ => 0

/-- Where a reader of a body stands: between string literals, in one, or behind a
backslash in one. -/
inductive Quoting
  | outside
  | inside
  | escaped
  deriving DecidableEq, Repr

/-- How deep a reader of a body is: `depth` counts the delimiters that were opened in
the body and not closed; those in string literals do not count. -/
structure Nesting where
  depth : Nat := 0
  quoting : Quoting := .outside
  deriving DecidableEq, Repr

/-- The nesting after a character of the body, or none if the character closes it. -/
def Nesting.step (opening closing : Char) (n : Nesting) (c : Char) : Option Nesting :=
  match n.quoting with
  | .escaped => some ⟨n.depth, .inside⟩
  | .inside =>
    if c = '\\' then some ⟨n.depth, .escaped⟩
    else if c = '"' then some ⟨n.depth, .outside⟩
    else some n
  | .outside =>
    if c = '"' then some ⟨n.depth, .inside⟩
    else if c = opening then some ⟨n.depth + 1, .outside⟩
    else if c = closing then
      match n.depth with
      | 0 => none
      | depth + 1 => some ⟨depth, .outside⟩
    else some n

/-- The body of a construct up to its closing delimiter, and the text behind it. -/
def readBody (opening closing : Char) (n : Nesting) :
    List Char → Option (List Char × List Char)
  | [] => none
  | c :: rest =>
    match n.step opening closing c with
    | none => some ([], rest)
    | some n => (readBody opening closing n rest).map fun read => (c :: read.1, read.2)

theorem Nesting.eq_closing_of_step {opening closing c : Char} {n : Nesting}
    (h : n.step opening closing c = none) : c = closing := by
  unfold Nesting.step at h
  repeat' split at h
  all_goals first | assumption | cases h

/-- The longest path of identifiers a text starts with, when it starts with one; a dot
belongs to it only if an identifier follows. -/
def readNames : List Char → List Char × List Char
  | [] => ([], [])
  | c :: rest =>
    if isNamePart c || (c == '.' && rest.head?.any isNameStart) then
      (c :: (readNames rest).1, (readNames rest).2)
    else ([], c :: rest)

/-- The piece that an `@` opens with the character behind it, and the text behind the piece. -/
def readConstruct (d : Char) (rest : List Char) : Except Problem (Piece × List Char) :=
  if d = '@' then .ok (.atSign, rest)
  else if d = '(' then
    match readBody '(' ')' {} rest with
    | none => .error .unclosedExpression
    | some (body, rest) =>
      if trim body = [] then .error .emptyExpression else .ok (.expression body, rest)
  else if d = '{' then
    match readBody '{' '}' {} rest with
    | none => .error .unclosedCode
    | some (body, rest) => .ok (.code body, rest)
  else if isNameStart d then
    .ok (.path (readNames (d :: rest)).1, (readNames (d :: rest)).2)
  else .error (.unexpected d)

/-- The piece that starts with a character, and the text behind it. -/
def readPiece (c : Char) (rest : List Char) : Except Problem (Piece × List Char) :=
  if c = '@' then
    match rest with
    | [] => .error .dangling
    | d :: rest => readConstruct d rest
  else .ok (.run (c :: rest.takeWhile (· ≠ '@')), rest.dropWhile (· ≠ '@'))

theorem readBody_eq_some {opening closing : Char} {n : Nesting} {cs body rest : List Char}
    (h : readBody opening closing n cs = some (body, rest)) :
    cs = body ++ closing :: rest := by
  induction cs generalizing n body with
  | nil => simp [readBody] at h
  | cons c cs ih =>
    unfold readBody at h
    split at h
    · next hc =>
      obtain ⟨rfl, rfl⟩ := by simpa using h
      rw [Nesting.eq_closing_of_step hc, List.nil_append]
    · obtain ⟨read, hread, hr⟩ := Option.map_eq_some_iff.mp h
      obtain ⟨rfl, rfl⟩ := by simpa using hr
      rw [ih hread, List.cons_append]

theorem readNames_append (cs : List Char) : (readNames cs).1 ++ (readNames cs).2 = cs := by
  induction cs with
  | nil => rfl
  | cons c rest ih =>
    unfold readNames
    split <;> simp [ih]

theorem readConstruct_eq_ok {d : Char} {cs rest : List Char} {piece : Piece}
    (h : readConstruct d cs = .ok (piece, rest)) : '@' :: d :: cs = piece.written ++ rest := by
  unfold readConstruct at h
  split at h
  · next hd =>
    obtain ⟨rfl, rfl⟩ := by simpa using h
    simp [Piece.written, hd]
  · split at h
    · next hd =>
      split at h
      · cases h
      · next hbody =>
        split at h
        · cases h
        · obtain ⟨rfl, rfl⟩ := by simpa using h
          simp [Piece.written, hd, readBody_eq_some hbody]
    · split at h
      · next hd =>
        split at h
        · cases h
        · next hbody =>
          obtain ⟨rfl, rfl⟩ := by simpa using h
          simp [Piece.written, hd, readBody_eq_some hbody]
      · split at h
        · obtain ⟨rfl, rfl⟩ := by simpa using h
          simp [Piece.written, readNames_append]
        · cases h

/-- Nothing is lost: the piece as written and the rest make up the text. -/
theorem readPiece_eq_ok {c : Char} {cs rest : List Char} {piece : Piece}
    (h : readPiece c cs = .ok (piece, rest)) : c :: cs = piece.written ++ rest := by
  unfold readPiece at h
  split at h
  · next hc =>
    split at h
    · cases h
    · rw [hc, readConstruct_eq_ok h]
  · obtain ⟨rfl, rfl⟩ := by simpa using h
    simp only [Piece.written, List.cons_append, List.takeWhile_append_dropWhile]

theorem Piece.written_ne_nil {c : Char} {cs rest : List Char} {piece : Piece}
    (h : readPiece c cs = .ok (piece, rest)) : piece.written ≠ [] := by
  cases piece with
  | run text =>
    intro hnil
    have htext : text = [] := hnil
    have := readPiece_eq_ok h
    unfold readPiece at h
    split at h
    · split at h
      · cases h
      · unfold readConstruct at h
        repeat' split at h
        all_goals cases h
    · obtain ⟨hrun, -⟩ := by simpa using h
      simp [htext] at hrun
  | atSign => simp [Piece.written]
  | expression body => simp [Piece.written]
  | code body => simp [Piece.written]
  | path names => simp [Piece.written]

/-- The pieces of a text, and the problem that ends it early. -/
def readPieces : List Char → List Piece × Option Problem
  | [] => ([], none)
  | c :: cs =>
    match _h : readPiece c cs with
    | .error problem => ([], some problem)
    | .ok (piece, rest) => (piece :: (readPieces rest).1, (readPieces rest).2)
termination_by cs => cs.length
decreasing_by
  all_goals
    have hl := congrArg List.length (readPiece_eq_ok _h)
    have hw := List.length_pos_iff.mpr (Piece.written_ne_nil _h)
    simp only [List.length_append] at hl
    omega

end TemplateViews.Markup
