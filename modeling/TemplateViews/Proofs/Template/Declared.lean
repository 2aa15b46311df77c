import Mathlib.Data.List.Basic
import TemplateViews.Proofs.Text.Trim
import TemplateViews.Template.Declared

/-! What a template declares for a keyword. A line declares for it if it starts, blanks aside,
with the token of the keyword; the first such line counts. -/

namespace TemplateViews

/-- The rule of the scanner; the line has its terminator still. -/
def IsDeclaration (raw : List Char) : Prop :=
  ∃ keyword : Keyword, keyword.token.toList <+: trim raw

namespace Keyword

variable {keyword : Keyword} {line : List Char}

theorem argument?_eq_some_iff {argument : List Char} : keyword.argument? line = some argument ↔
    ∃ rest, trim line = keyword.token.toList ++ rest ∧ argument = trim rest := by
  rw [argument?, Option.map_eq_some_iff]
  simp only [List.isPrefixOf?_eq_some_iff_append_eq]
  constructor
  · rintro ⟨rest, hrest, rfl⟩
    exact ⟨rest, hrest.symm, rfl⟩
  · rintro ⟨rest, hrest, rfl⟩
    exact ⟨rest, hrest.symm, rfl⟩

theorem isSome_argument?_iff :
    (keyword.argument? line).isSome ↔ keyword.token.toList <+: trim line := by
  rw [Option.isSome_iff_exists]
  constructor
  · rintro ⟨argument, h⟩
    obtain ⟨rest, hrest, -⟩ := argument?_eq_some_iff.mp h
    exact ⟨rest, hrest.symm⟩
  · rintro ⟨rest, hrest⟩
    exact ⟨trim rest, argument?_eq_some_iff.mpr ⟨rest, hrest.symm, rfl⟩⟩

end Keyword

theorem isDeclaration_iff {raw : List Char} : IsDeclaration raw ↔
    Keyword.model.token.toList <+: trim raw ∨ Keyword.handler.token.toList <+: trim raw := by
  constructor
  · rintro ⟨keyword, h⟩
    cases keyword with
    | model => exact .inl h
    | handler => exact .inr h
  · rintro (h | h)
    · exact ⟨.model, h⟩
    · exact ⟨.handler, h⟩

instance (raw : List Char) : Decidable (IsDeclaration raw) :=
  decidable_of_iff _ isDeclaration_iff.symm

theorem IsDeclaration.append_blanks_iff {raw after : List Char}
    (h : ∀ c ∈ after, isBlank c = true) : IsDeclaration (raw ++ after) ↔ IsDeclaration raw := by
  rw [IsDeclaration, trim_append_blanks raw h]
  rfl

namespace Declaration

variable {keyword : Keyword} {number : Nat} {line : List Char}

theorem isSome_ofLine?_iff :
    (ofLine? keyword number line).isSome ↔ keyword.token.toList <+: trim line := by
  rw [ofLine?, Option.isSome_map, Keyword.isSome_argument?_iff]

theorem line_of_ofLine? {d : Declaration} (h : ofLine? keyword number line = some d) :
    d.line = number := by
  obtain ⟨argument, -, rfl⟩ := Option.map_eq_some_iff.mp h
  rfl

end Declaration

namespace Declared

def of (d : Declared) : Keyword → Option Declaration
  | .model => d.model
  | .handler => d.handler

theorem of_record (d : Declared) (keyword : Keyword) (number : Nat) (line : List Char) :
    (d.record number line).of keyword =
      (d.of keyword).or (Declaration.ofLine? keyword number line) := by
  cases keyword <;> exact Option.orElse_eq_or

theorem of_foldl_record (d : Declared) (keyword : Keyword) (entries : List (List Char × Nat)) :
    (entries.foldl (fun d entry => d.record entry.2 entry.1) d).of keyword =
      (d.of keyword).or
        (entries.findSome? fun entry => Declaration.ofLine? keyword entry.2 entry.1) := by
  induction entries generalizing d with
  | nil => simp
  | cons entry entries ih =>
    rw [List.foldl_cons, ih, of_record, Option.or_assoc, List.findSome?_cons]
    cases Declaration.ofLine? keyword entry.2 entry.1 <;> rfl

/-- The first line with the keyword's token counts. -/
theorem of_ofText (text : String) (keyword : Keyword) :
    (ofText text).of keyword = ((linesOf text.toList).zipIdx 1).findSome? fun entry =>
      Declaration.ofLine? keyword entry.2 entry.1 := by
  rw [ofText, ofLines, of_foldl_record]
  cases keyword <;> rfl

theorem exists_findSome?_le {keyword : Keyword} {raw : List Char} {raws : List (List Char)}
    {number n : Nat} (hmem : (raw, n) ∈ raws.zipIdx number)
    (hraw : keyword.token.toList <+: trim raw) : ∃ d : Declaration,
      ((raws.zipIdx number).findSome? fun entry => Declaration.ofLine? keyword entry.2 entry.1) =
        some d ∧ d.line ≤ n := by
  induction raws generalizing number with
  | nil => simp at hmem
  | cons first raws ih =>
    have hle := (List.mk_mem_zipIdx_iff_le_and_getElem?_sub.mp hmem).1
    rw [List.zipIdx_cons] at hmem ⊢
    rw [List.findSome?_cons]
    cases hfirst : Declaration.ofLine? keyword number first with
    | some d =>
      have hline := Declaration.line_of_ofLine? hfirst
      exact ⟨d, rfl, by omega⟩
    | none =>
      rcases List.mem_cons.mp hmem with he | hmem
      · obtain ⟨rfl, rfl⟩ := Prod.mk.inj he
        have hsome : (Declaration.ofLine? keyword n raw).isSome :=
          Declaration.isSome_ofLine?_iff.mpr hraw
        rw [hfirst] at hsome
        cases hsome
      · exact ih hmem

end Declared

end TemplateViews
