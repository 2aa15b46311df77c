/-! Outcomes of steps that can fail, taken apart. -/

namespace TemplateViews

variable {α β ε : Type}

theorem map_eq_ok_iff {x : Except ε α} {f : α → β} {b : β} :
    x.map f = .ok b ↔ ∃ a, x = .ok a ∧ f a = b := by
  cases x <;> simp [Except.map]

theorem map_eq_error_iff {x : Except ε α} {f : α → β} {e : ε} :
    x.map f = .error e ↔ x = .error e := by
  cases x <;> simp [Except.map]

theorem mapM_cons_eq_ok_iff {f : α → Except ε β} {a : α} {as : List α} {bs : List β} :
    (a :: as).mapM f = .ok bs ↔ ∃ b rest, f a = .ok b ∧ as.mapM f = .ok rest ∧ bs = b :: rest := by
  rw [List.mapM_cons]
  cases f a with
  | error e => simp [bind, Except.bind]
  | ok b =>
    cases as.mapM f with
    | error e => simp [bind, Except.bind]
    | ok rest => simp [bind, Except.bind, pure, Except.pure, eq_comm]

/-- Values that were found are put together in order. -/
theorem filterMap_mapM_cons {f : α → Except ε (Option β)} {a : α} {as : List α} :
    ((a :: as).mapM f).map (List.filterMap id) = (f a).bind fun found =>
      ((as.mapM f).map (List.filterMap id)).map (found.toList ++ ·) := by
  rw [List.mapM_cons]
  cases f a with
  | error e => rfl
  | ok found =>
    cases as.mapM f with
    | error e => rfl
    | ok rest => cases found <;> rfl

end TemplateViews
