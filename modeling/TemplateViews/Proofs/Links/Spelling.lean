import TemplateViews.Path
import TemplateViews.Proofs.Text.Split

/-! Spellings of a path. A slash behind a slash, a `.` between slashes and a slash at the end
do not change the components, so paths that differ in them name the same place. -/

namespace TemplateViews.Path

/-- A path and the same one written shorter. -/
inductive Respelled : Path → Path → Prop
  | slashes (front back : String) : Respelled ⟨front ++ "//" ++ back⟩ ⟨front ++ "/" ++ back⟩
  | here (front back : String) : Respelled ⟨front ++ "/./" ++ back⟩ ⟨front ++ "/" ++ back⟩
  | trailing {front : String} (hne : front ≠ "") : Respelled ⟨front ++ "/"⟩ ⟨front⟩

theorem pieces_append_slash (front back : String) :
    pieces ⟨front ++ "/" ++ back⟩ = pieces ⟨front⟩ ++ pieces ⟨back⟩ := by
  have htext : (front ++ "/" ++ back).toList = front.toList ++ '/' :: back.toList := by simp
  rw [pieces, htext, splitAt_append_separator]
  rfl

theorem components_eq {p : Path} {first : List Char} {rest : List (List Char)}
    (h : p.pieces = first :: rest) : p.components =
      (Component.first first !rest.isEmpty).toList ++ rest.filterMap Component.inner := by
  rw [components, h]

theorem exists_pieces (p : Path) : ∃ first rest, p.pieces = first :: rest :=
  List.exists_cons_of_ne_nil (splitAt_ne_nil '/' p.text.toList)

/-- A piece between slashes that stands for no component can be left out. -/
theorem components_append_slash {front middle back : String}
    (h : Component.inner middle.toList = none) (hslash : '/' ∉ middle.toList) :
    components ⟨front ++ "/" ++ middle ++ "/" ++ back⟩ = components ⟨front ++ "/" ++ back⟩ := by
  obtain ⟨first, rest, hfront⟩ := exists_pieces ⟨front⟩
  obtain ⟨next, more, hback⟩ := exists_pieces ⟨back⟩
  have hmiddle : pieces ⟨middle⟩ = [middle.toList] := splitAt_of_not_mem hslash
  have hlong : pieces ⟨front ++ "/" ++ middle ++ "/" ++ back⟩ =
      first :: (rest ++ middle.toList :: next :: more) := by
    rw [pieces_append_slash, pieces_append_slash, hfront, hmiddle, hback]
    simp
  have hshort : pieces ⟨front ++ "/" ++ back⟩ = first :: (rest ++ next :: more) := by
    rw [pieces_append_slash, hfront, hback, List.cons_append]
  rw [components_eq hlong, components_eq hshort, List.filterMap_append, List.filterMap_append,
    List.filterMap_cons_none h]
  cases rest <;> rfl

theorem components_slash_end {front : String} (hne : front ≠ "") :
    components ⟨front ++ "/"⟩ = components ⟨front⟩ := by
  obtain ⟨first, rest, hfront⟩ := exists_pieces ⟨front⟩
  have hlong : pieces ⟨front ++ "/"⟩ = first :: (rest ++ [[]]) := by
    have happend := pieces_append_slash front ""
    rw [String.append_empty, hfront] at happend
    exact happend
  have hempty : [[]].filterMap Component.inner = [] := by decide
  rw [components_eq hlong, components_eq hfront, List.filterMap_append, hempty, List.append_nil]
  by_cases hrest : rest = []
  · -- without a slash in the front its only piece is the front itself
    have hfirst : first ≠ [] := by
      intro hnil
      have htext := joinWith_splitAt '/' front.toList
      rw [show splitAt '/' front.toList = first :: rest from hfront, hrest, hnil] at htext
      exact hne (String.toList_eq_nil_iff.mp htext.symm)
    rw [hrest, Component.first, Component.first, if_neg hfirst, if_neg hfirst]
  · cases rest with
    | nil => exact absurd rfl hrest
    | cons next rest => rfl

theorem Respelled.components_eq {p q : Path} (h : Respelled p q) : p.components = q.components := by
  cases h with
  | slashes front back =>
    have hlong : front ++ "//" ++ back = front ++ "/" ++ "" ++ "/" ++ back :=
      String.toList_inj.mp (by simp)
    rw [hlong]
    exact components_append_slash (by decide) (by decide)
  | here front back =>
    have hlong : front ++ "/./" ++ back = front ++ "/" ++ "." ++ "/" ++ back :=
      String.toList_inj.mp (by simp)
    rw [hlong]
    exact components_append_slash (by decide) (by decide)
  | trailing hne => exact components_slash_end hne

end TemplateViews.Path
