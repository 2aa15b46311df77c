import TemplateViews.Proofs.Text.Split

/-! Double colons of a text: those it starts with, and the last one in it, behind which its
last name stands. -/

namespace TemplateViews

/-- The rest of a text behind the double colons it starts with. -/
def StripsColons (cs rest : List Char) : Prop :=
  (∃ count, cs = colons count ++ rest) ∧ ¬ [':', ':'] <+: rest

/-- The text after the rightmost double colon, all of it without one. -/
def IsLastName (cs last : List Char) : Prop :=
  (cs = last ∧ ¬ [':', ':'] <:+: cs) ∨
    ∃ front, cs = front ++ [':', ':'] ++ last ∧ ¬ [':', ':'] <:+: ':' :: last

variable {cs rest last : List Char}

theorem hasColons_iff : hasColons cs = true ↔ [':', ':'] <:+: cs := by
  fun_induction hasColons cs with
  | case1 => simp
  | case2 rest => exact iff_of_true rfl ⟨[], rest, rfl⟩
  | case3 c rest hcolons ih =>
    rw [ih, List.infix_cons_iff]
    refine ⟨.inr, fun h => h.resolve_left ?_⟩
    rintro ⟨behind, hbehind⟩
    obtain ⟨rfl, hrest⟩ := List.cons.inj hbehind
    exact hcolons behind rfl hrest.symm

theorem dropColons_of_not_prefix (h : ¬ [':', ':'] <+: cs) : dropColons cs = cs := by
  unfold dropColons
  split
  · next rest => exact absurd ⟨rest, rfl⟩ h
  · rfl

theorem not_prefix_dropColons (cs : List Char) : ¬ [':', ':'] <+: dropColons cs := by
  fun_induction dropColons cs with
  | case1 rest ih => exact ih
  | case2 cs hcolons =>
    rintro ⟨behind, rfl⟩
    exact hcolons behind rfl

theorem dropColons_eq_iff : dropColons cs = rest ↔ StripsColons cs rest := by
  constructor
  · rintro rfl
    exact ⟨exists_colons_dropColons cs, not_prefix_dropColons cs⟩
  · rintro ⟨⟨count, rfl⟩, hrest⟩
    induction count with
    | zero => exact dropColons_of_not_prefix hrest
    | succ count ih =>
      rw [colons, List.replicate_succ, List.flatten_cons, List.append_assoc, ← colons]
      exact ih

theorem untilColons_append (back : List Char) (h : ¬ [':', ':'] <:+: cs ++ [':']) :
    untilColons (cs ++ [':', ':'] ++ back) = cs := by
  induction cs with
  | nil => rfl
  | cons c cs ih =>
    rw [List.cons_append, List.infix_cons_iff, not_or] at h
    rw [List.cons_append, List.cons_append, untilColons, ih h.2]
    rintro behind rfl hbehind
    cases cs with
    | nil => exact h.1 ⟨[], rfl⟩
    | cons d cs =>
      obtain ⟨rfl, -⟩ := List.cons.inj hbehind
      exact h.1 ⟨cs ++ [':'], rfl⟩

theorem untilColons_cases (cs : List Char) :
    (untilColons cs = cs ∧ ¬ [':', ':'] <:+: cs) ∨
      ∃ back, cs = untilColons cs ++ [':', ':'] ++ back ∧
        ¬ [':', ':'] <:+: untilColons cs ++ [':'] := by
  fun_induction untilColons cs with
  | case1 => exact .inl ⟨rfl, by simp⟩
  | case2 rest => exact .inr ⟨rest, rfl, by decide⟩
  | case3 c rest hcolons ih =>
    have hhead : ¬ [':', ':'] <+: c :: rest := by
      rintro ⟨behind, hbehind⟩
      obtain ⟨rfl, hrest⟩ := List.cons.inj hbehind
      exact hcolons behind rfl hrest.symm
    rcases ih with ⟨hrest, hnone⟩ | ⟨back, hrest, hnone⟩
    · refine .inl ⟨by rw [hrest], ?_⟩
      rw [List.infix_cons_iff, not_or]
      exact ⟨hhead, hnone⟩
    · refine .inr ⟨back, by rw [List.cons_append, List.cons_append, ← hrest], ?_⟩
      rw [List.cons_append, List.infix_cons_iff, not_or]
      refine ⟨fun hprefix => hhead ?_, hnone⟩
      rw [hrest]
      exact hprefix.trans ⟨':' :: back, by simp⟩

theorem afterColons_eq_iff : afterColons cs = last ↔ IsLastName cs last := by
  have hpair : [':', ':'].reverse = [':', ':'] := rfl
  constructor
  · rintro rfl
    rcases untilColons_cases cs.reverse with ⟨hwhole, hnone⟩ | ⟨back, hcut, hnone⟩
    · rw [← hpair, List.reverse_infix] at hnone
      exact .inl ⟨by rw [afterColons, hwhole, List.reverse_reverse], hnone⟩
    · refine .inr ⟨back.reverse, ?_, ?_⟩
      · have hreverse := congrArg List.reverse hcut
        simpa [afterColons] using hreverse
      · rw [← hpair, ← List.reverse_infix] at hnone
        simpa [afterColons] using hnone
  · rintro (⟨rfl, hnone⟩ | ⟨front, rfl, hnone⟩)
    · rw [← List.reverse_infix, hpair] at hnone
      rw [afterColons, untilColons_of_not_infix hnone, List.reverse_reverse]
    · rw [← List.reverse_infix, hpair, List.reverse_cons] at hnone
      have hcut := untilColons_append front.reverse hnone
      rw [afterColons, List.reverse_append, List.reverse_append, hpair, ← List.append_assoc, hcut,
        List.reverse_reverse]

end TemplateViews
