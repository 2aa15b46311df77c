import TemplateViews.Proofs.Text.Split
import TemplateViews.Text.Blank
import TemplateViews.Text.Identifier

/-! Paths of identifiers with a separator between them: the members that markup prints
and the paths of types. -/

namespace TemplateViews

/-- One or more identifiers joined by a separator. -/
inductive IsNamePath (separator : List Char) : List Char → Prop
  | single {name : List Char} (hname : isIdentifier name = true) : IsNamePath separator name
  | cons {name cs : List Char} (hname : isIdentifier name = true)
      (h : IsNamePath separator cs) : IsNamePath separator (name ++ separator ++ cs)

theorem isNamePart_of_isNameStart {c : Char} (h : isNameStart c = true) : isNamePart c = true := by
  simp only [isNameStart, isNamePart, Char.isAlphanum, Bool.or_eq_true] at h ⊢
  exact h.imp_left .inl

theorem isNamePart_of_mem_identifier {name : List Char} {c : Char}
    (hname : isIdentifier name = true) (hc : c ∈ name) : isNamePart c = true := by
  cases name with
  | nil => simp at hc
  | cons first rest =>
    simp only [isIdentifier, Bool.and_eq_true, List.all_eq_true] at hname
    rcases List.mem_cons.mp hc with rfl | hc
    · exact isNamePart_of_isNameStart hname.1
    · exact hname.2 c hc

theorem isIdentifier_append {name more : List Char} (hname : isIdentifier name = true)
    (hmore : ∀ c ∈ more, isNamePart c = true) : isIdentifier (name ++ more) = true := by
  cases name with
  | nil => simp [isIdentifier] at hname
  | cons first rest =>
    simp only [isIdentifier, Bool.and_eq_true, List.all_eq_true, List.cons_append] at hname ⊢
    refine ⟨hname.1, fun c hc => ?_⟩
    rcases List.mem_append.mp hc with hc | hc
    · exact hname.2 c hc
    · exact hmore c hc

theorem not_mem_identifier {name : List Char} {c : Char} (hname : isIdentifier name = true)
    (hc : isNamePart c = false) : c ∉ name := by
  intro h
  rw [isNamePart_of_mem_identifier hname h] at hc
  cases hc

theorem IsNamePath.head {separator cs : List Char} (h : IsNamePath separator cs) :
    ∃ c rest, cs = c :: rest ∧ isNameStart c = true := by
  have hfirst (name more : List Char) (hname : isIdentifier name = true) :
      ∃ c rest, name ++ more = c :: rest ∧ isNameStart c = true := by
    cases name with
    | nil => simp [isIdentifier] at hname
    | cons c rest =>
      simp only [isIdentifier, Bool.and_eq_true] at hname
      exact ⟨c, rest ++ more, rfl, hname.1⟩
  cases h with
  | single hname => simpa using hfirst cs [] hname
  | cons hname _ => simpa using hfirst _ (separator ++ _) hname

theorem IsNamePath.not_mem {separator cs : List Char} {c : Char} (h : IsNamePath separator cs)
    (hc : isNamePart c = false) (hseparator : c ∉ separator) : c ∉ cs := by
  induction h with
  | single hname => exact not_mem_identifier hname hc
  | cons hname _ ih =>
    simp only [List.mem_append, not_or]
    exact ⟨⟨not_mem_identifier hname hc, hseparator⟩, ih⟩

theorem isNamePath_joinWith {separator : List Char} {pieces : List (List Char)} (hne : pieces ≠ [])
    (h : ∀ piece ∈ pieces, isIdentifier piece = true) :
    IsNamePath separator (joinWith separator pieces) := by
  induction pieces with
  | nil => exact absurd rfl hne
  | cons piece rest ih =>
    have hpiece := h piece (by simp)
    by_cases hrest : rest = []
    · subst hrest
      exact .single hpiece
    · rw [joinWith_cons hrest]
      exact .cons hpiece (ih hrest fun p hp => h p (by simp [hp]))

theorem isNamePart_bounds {c : Char} (h : isNamePart c = true) :
    0x20 < c.toNat ∧ c.toNat < 0x80 := by
  delta isNamePart Char.isAlphanum Char.isAlpha Char.isUpper Char.isLower Char.isDigit at h
  simp only [Bool.or_eq_true, Bool.and_eq_true, decide_eq_true_eq, beq_iff_eq,
    UInt32.le_iff_toNat_le, Char.toNat_val] at h
  rcases h with ((hupper | hlower) | hdigit) | rfl
  · simp at hupper
    omega
  · simp at hlower
    omega
  · simp at hdigit
    omega
  · decide

theorem not_isBlank_of_isNamePart {c : Char} (h : isNamePart c = true) : isBlank c = false := by
  obtain ⟨hlow, hhigh⟩ := isNamePart_bounds h
  simp only [isBlank, Bool.or_eq_false_iff, Bool.and_eq_false_iff, decide_eq_false_iff_not,
    beq_eq_false_iff_ne]
  omega

theorem IsNamePath.getLast {separator cs : List Char} (h : IsNamePath separator cs) :
    ∃ front c, cs = front ++ [c] ∧ isNamePart c = true := by
  induction h with
  | single hname =>
    rename_i name
    have hne : name ≠ [] := by rintro rfl; simp [isIdentifier] at hname
    exact ⟨name.dropLast, name.getLast hne, (List.dropLast_concat_getLast hne).symm,
      isNamePart_of_mem_identifier hname (List.getLast_mem hne)⟩
  | @cons name _ hname _ ih =>
    obtain ⟨front, c, rfl, hc⟩ := ih
    exact ⟨name ++ separator ++ front, c, by simp, hc⟩

end TemplateViews
