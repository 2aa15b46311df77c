/-! Lines of a text. A text is cut after every line feed, so its lines put
together again are the text; a line is its content and the terminator it ends with. -/

namespace TemplateViews

def consLine (c : Char) (lines : List (List Char)) : List (List Char) :=
  if c = '\n' then [c] :: lines
  else
    match lines with
    | [] => [[c]]
    | line :: rest => (c :: line) :: rest

/-- The lines of a text with their terminators. The empty text has none. -/
def linesOf (text : List Char) : List (List Char) := text.foldr consLine []

inductive Terminator
  | absent
  | lineFeed
  | returnLineFeed
  deriving DecidableEq, Repr

def Terminator.chars : Terminator → List Char
  | .absent => []
  | .lineFeed => ['\n']
  | .returnLineFeed => ['\r', '\n']

structure Line where
  content : List Char
  terminator : Terminator
  deriving DecidableEq, Repr

/-- A carriage return belongs to the terminator only in front of a line feed. -/
def Line.ofChars (raw : List Char) : Line :=
  match raw.reverse with
  | '\n' :: '\r' :: content => ⟨content.reverse, .returnLineFeed⟩
  | '\n' :: content => ⟨content.reverse, .lineFeed⟩
  | _ => ⟨raw, .absent⟩

def Line.chars (line : Line) : List Char := line.content ++ line.terminator.chars

@[simp] theorem linesOf_nil : linesOf [] = [] := rfl

theorem linesOf_cons (c : Char) (cs : List Char) :
    linesOf (c :: cs) = consLine c (linesOf cs) := rfl

theorem flatten_consLine (c : Char) (lines : List (List Char)) :
    (consLine c lines).flatten = c :: lines.flatten := by
  cases lines <;> by_cases h : c = '\n' <;> simp [consLine, h]

theorem flatten_linesOf (text : List Char) : (linesOf text).flatten = text := by
  induction text with
  | nil => rfl
  | cons c cs ih => rw [linesOf_cons, flatten_consLine, ih]

theorem Line.chars_ofChars (raw : List Char) : (Line.ofChars raw).chars = raw := by
  obtain ⟨rev, rfl⟩ : ∃ rev : List Char, raw = rev.reverse := ⟨raw.reverse, by simp⟩
  simp only [Line.ofChars, List.reverse_reverse]
  split <;> simp [Line.chars, Terminator.chars]

end TemplateViews
