import TemplateViews.Text.Blank
import TemplateViews.Text.Identifier
import TemplateViews.Text.Split

/-! Names of types: a path of identifiers, and in angle brackets the names of its
arguments. A text that is no such name still gives a tree; what cannot be read
stands in it as it was written, so that a reader meets faults in the order of the
text, outer before inner. -/

namespace TemplateViews

inductive TypeName
  | malformed (text : String)
  | named (base : String) (args : List TypeName)
  deriving Repr

def isTypePath (cs : List Char) : Bool := (splitColons cs).all isIdentifier

def bracketStep (depth : Int) (c : Char) : Int :=
  if c = '<' then depth + 1 else if c = '>' then depth - 1 else depth

/-- Cuts a text at the commas outside of all brackets. Fails when a bracket closes
that is not open, and when one is left open. -/
def splitArguments (depth : Int) : List Char → Option (List (List Char))
  | [] => if depth = 0 then some [[]] else none
  | c :: rest =>
    if c = ',' ∧ depth = 0 then (splitArguments depth rest).map ([] :: ·)
    else if bracketStep depth c < 0 then none
    else (splitArguments (bracketStep depth c) rest).map (consPiece c)

def dropClosing? (cs : List Char) : Option (List Char) :=
  match cs.reverse with
  | '>' :: rest => some rest.reverse
  | _ => none

/-- The path in front of the first bracket, and the texts of the arguments in it,
none of them blank. -/
def splitName (cs : List Char) : Option (List Char × List (List Char)) :=
  match cs.dropWhile (· ≠ '<') with
  | [] => if '>' ∈ cs then none else some (cs, [])
  | _ :: behind =>
    match dropClosing? behind with
    | none => none
    | some inner =>
      match splitArguments 0 inner with
      | none => none
      | some args =>
        if [] ∈ args.map trim then none
        else some (trim (cs.takeWhile (· ≠ '<')), args.map trim)

theorem length_trim_le (cs : List Char) : (trim cs).length ≤ cs.length := by
  have h := (List.dropWhile_sublist isBlank (l := (trimStart cs).reverse)).length_le
  have h' := (List.dropWhile_sublist isBlank (l := cs)).length_le
  simp only [trim, trimEnd, trimStart, List.length_reverse] at *
  omega

theorem length_le_of_mem_consPiece {c : Char} {piece : List Char} {pieces : List (List Char)}
    {n : Nat} (hn : ∀ p ∈ pieces, p.length ≤ n) (h : piece ∈ consPiece c pieces) :
    piece.length ≤ n + 1 := by
  cases pieces with
  | nil => simp_all [consPiece]
  | cons first rest =>
    simp only [consPiece, List.mem_cons] at h
    rcases h with rfl | h
    · simpa using hn first (by simp)
    · exact Nat.le_succ_of_le (hn piece (by simp [h]))

theorem length_le_of_splitArguments {depth : Int} {cs : List Char} {args : List (List Char)}
    (h : splitArguments depth cs = some args) : ∀ arg ∈ args, arg.length ≤ cs.length := by
  induction cs generalizing depth args with
  | nil =>
    simp only [splitArguments, Option.ite_none_right_eq_some, Option.some.injEq] at h
    simp [← h.2]
  | cons c cs ih =>
    simp only [splitArguments] at h
    split at h
    · obtain ⟨args, hargs, rfl⟩ := Option.map_eq_some_iff.mp h
      intro arg harg
      rcases List.mem_cons.mp harg with rfl | harg
      · simp
      · exact Nat.le_succ_of_le (ih hargs arg harg)
    · split at h
      · cases h
      · obtain ⟨args, hargs, rfl⟩ := Option.map_eq_some_iff.mp h
        exact fun arg harg => length_le_of_mem_consPiece (ih hargs) harg

theorem length_dropClosing? {cs inner : List Char} (h : dropClosing? cs = some inner) :
    inner.length + 1 = cs.length := by
  unfold dropClosing? at h
  split at h
  · next rest hrest =>
    have := congrArg List.length hrest
    simp only [List.length_reverse, List.length_cons] at this
    simp only [Option.some.injEq] at h
    simp [← h, this]
  · cases h

theorem length_lt_of_splitName {cs base : List Char} {args : List (List Char)}
    (h : splitName cs = some (base, args)) : ∀ arg ∈ args, arg.length < cs.length := by
  unfold splitName at h
  split at h
  · split at h
    · cases h
    · simp_all
  · next c behind hbehind =>
    have hle := (List.dropWhile_sublist (fun x : Char => decide (x ≠ '<')) (l := cs)).length_le
    rw [hbehind, List.length_cons] at hle
    split at h
    · cases h
    · next inner hinner =>
      split at h
      · cases h
      · next args hargs =>
        split at h
        · cases h
        · obtain ⟨rfl, rfl⟩ := by simpa using h
          intro arg harg
          obtain ⟨raw, hraw, rfl⟩ := List.mem_map.mp harg
          have := length_trim_le raw
          have := length_le_of_splitArguments hargs raw hraw
          have := length_dropClosing? hinner
          omega

/-- Reads a text without blanks at its ends. -/
def TypeName.read (cs : List Char) : TypeName :=
  match _h : splitName cs with
  | none => .malformed (String.ofList cs)
  | some (base, args) =>
    if isTypePath (dropColons base) then
      .named (String.ofList (dropColons base)) (args.attach.map fun arg => read arg.1)
    else .malformed (String.ofList cs)
termination_by cs.length
decreasing_by exact length_lt_of_splitName _h arg.1 arg.2

/-- How deep opening brackets nest; a closing one that nothing opened does not count. -/
def nestingFrom (depth : Nat) : List Char → Nat
  | [] => 0
  | c :: rest =>
    if c = '<' then max (depth + 1) (nestingFrom (depth + 1) rest)
    else if c = '>' then nestingFrom (depth - 1) rest
    else nestingFrom depth rest

def nesting (cs : List Char) : Nat := nestingFrom 0 cs

end TemplateViews
