import TemplateViews.Proofs.Text.Trim
import TemplateViews.Text.Lines

/-! Where a text is cut into lines: a line ends with the first line feed in it, and the
line feed belongs to its terminator. -/

namespace TemplateViews

theorem linesOf_append {cs : List Char} (rest : List Char) (h : '\n' ∉ cs) :
    linesOf (cs ++ '\n' :: rest) = (cs ++ ['\n']) :: linesOf rest := by
  induction cs with
  | nil => rfl
  | cons c cs ih =>
    have hc : c ≠ '\n' := fun hc => h (by simp [hc])
    have hcs : '\n' ∉ cs := fun hcs => h (by simp [hcs])
    rw [List.cons_append, linesOf_cons, ih hcs]
    simp [consLine, hc]

theorem linesOf_of_not_mem {cs : List Char} (h : '\n' ∉ cs) (hne : cs ≠ []) :
    linesOf cs = [cs] := by
  induction cs with
  | nil => exact absurd rfl hne
  | cons c cs ih =>
    rw [List.mem_cons, not_or] at h
    cases cs with
    | nil => simp [linesOf_cons, consLine, Ne.symm h.1]
    | cons next cs =>
      rw [linesOf_cons, ih h.2 (by simp)]
      simp [consLine, Ne.symm h.1]

/-- Lines of a text: each ends with the only line feed in it, and the last may do without. -/
inductive Lined : List (List Char) → Prop
  | nil : Lined []
  | last {cs : List Char} (h : '\n' ∉ cs) (hne : cs ≠ []) : Lined [cs]
  | cons {cs : List Char} {lines : List (List Char)} (h : '\n' ∉ cs) (hlines : Lined lines) :
      Lined ((cs ++ ['\n']) :: lines)

namespace Lined

variable {lines : List (List Char)} {line : List Char}

theorem linesOf_eq (h : Lined lines) : linesOf lines.flatten = lines := by
  induction h with
  | nil => rfl
  | last h hne => simpa using linesOf_of_not_mem h hne
  | cons h _ ih =>
    rw [List.flatten_cons, List.append_assoc, List.singleton_append, linesOf_append _ h, ih]

theorem exists_of_mem (h : Lined lines) (hline : line ∈ lines) :
    ∃ cs, '\n' ∉ cs ∧ (line = cs ∨ line = cs ++ ['\n']) := by
  induction h with
  | nil => simp at hline
  | last h _ =>
    obtain rfl := List.mem_singleton.mp hline
    exact ⟨_, h, .inl rfl⟩
  | cons h _ ih =>
    rcases List.mem_cons.mp hline with rfl | hline
    · exact ⟨_, h, .inr rfl⟩
    · exact ih hline

end Lined

theorem lined_linesOf (text : List Char) : Lined (linesOf text) := by
  induction text with
  | nil => exact .nil
  | cons c text ih =>
    rw [linesOf_cons]
    generalize linesOf text = lines at ih
    unfold consLine
    by_cases hc : c = '\n'
    · rw [if_pos hc, hc]
      exact .cons List.not_mem_nil ih
    · have hmem {cs : List Char} (h : '\n' ∉ cs) : '\n' ∉ c :: cs := by
        rw [List.mem_cons, not_or]
        exact ⟨Ne.symm hc, h⟩
      rw [if_neg hc]
      cases ih with
      | nil => exact .last (hmem List.not_mem_nil) (List.cons_ne_nil _ _)
      | last h _ => exact .last (hmem h) (List.cons_ne_nil _ _)
      | cons h hlines => exact .cons (hmem h) hlines

theorem linesOf_flatten {lines : List (List Char)}
    (h : ∀ line ∈ lines, ∃ cs, '\n' ∉ cs ∧ line = cs ++ ['\n']) :
    linesOf lines.flatten = lines := by
  apply Lined.linesOf_eq
  induction lines with
  | nil => exact .nil
  | cons line lines ih =>
    obtain ⟨⟨cs, hcs, rfl⟩, hlines⟩ := List.forall_mem_cons.mp h
    exact .cons hcs (ih hlines)

theorem mem_linesOf {text line : List Char} (h : line ∈ linesOf text) :
    ∃ cs, '\n' ∉ cs ∧ (line = cs ∨ line = cs ++ ['\n']) :=
  (lined_linesOf text).exists_of_mem h

theorem Line.ofChars_of_not_mem {raw : List Char} (h : '\n' ∉ raw) : ofChars raw = ⟨raw, .absent⟩ := by
  have hrev : '\n' ∉ raw.reverse := by simpa using h
  unfold ofChars
  split
  · next he => simp [he] at hrev
  · next he => simp [he] at hrev
  · rfl

theorem Terminator.isBlank_of_mem (terminator : Terminator) :
    ∀ c ∈ terminator.chars, isBlank c = true := by
  cases terminator with
  | absent => exact List.forall_mem_nil _
  | lineFeed => exact List.forall_mem_singleton.mpr (by decide)
  | returnLineFeed =>
    rw [Terminator.chars, List.forall_mem_cons, List.forall_mem_singleton]
    exact ⟨by decide, by decide⟩

theorem trim_append_lineFeed (cs : List Char) : trim (cs ++ ['\n']) = trim cs :=
  trim_append_blanks cs (Terminator.isBlank_of_mem .lineFeed)

theorem Line.exists_terminator_lineFeed (cs : List Char) :
    ∃ more, '\n' ∉ more ∧ (ofChars (cs ++ ['\n'])).terminator.chars = more ++ ['\n'] := by
  unfold ofChars
  rw [List.reverse_append, List.reverse_singleton, List.singleton_append]
  split
  · exact ⟨['\r'], by decide, rfl⟩
  · exact ⟨[], by decide, rfl⟩
  · next hnone => exact absurd rfl (hnone cs.reverse)

/-- The content of a line can be exchanged: the text stays cut at the same places. -/
theorem Lined.exchange {before after : List (List Char)} {raw content : List Char}
    (h : Lined (before ++ raw :: after)) (hcontent : '\n' ∉ content) (hne : content ≠ []) :
    Lined (before ++ (content ++ (Line.ofChars raw).terminator.chars) :: after) := by
  induction before with
  | nil =>
    cases h with
    | last hraw _ =>
      rw [Line.ofChars_of_not_mem hraw, Terminator.chars, List.append_nil]
      exact .last hcontent hne
    | @cons cs _ hcs hafter =>
      obtain ⟨more, hmore, hterminator⟩ := Line.exists_terminator_lineFeed cs
      have hfront : '\n' ∉ content ++ more := by simp [hcontent, hmore]
      rw [hterminator, ← List.append_assoc]
      exact .cons hfront hafter
  | cons line before ih =>
    rw [List.cons_append] at h
    generalize hbehind : before ++ raw :: after = behind at h ih
    cases h with
    | last hline _ => simp at hbehind
    | cons hline hlines => exact .cons hline (ih hlines)

/-- A text behind which a new line starts. -/
def EndsLine (cs : List Char) : Prop := cs = [] ∨ cs.getLast? = some '\n'

instance (cs : List Char) : Decidable (EndsLine cs) := inferInstanceAs (Decidable (_ ∨ _))

theorem EndsLine.of_append {cs rest : List Char} (h : EndsLine (cs ++ rest)) : EndsLine rest := by
  by_cases hrest : rest = []
  · exact .inl hrest
  · refine .inr ?_
    rcases h with hnil | hlast
    · exact absurd (List.append_eq_nil_iff.mp hnil).2 hrest
    · rw [List.getLast?_append, List.getLast?_eq_some_getLast hrest, Option.some_or] at hlast
      rw [List.getLast?_eq_some_getLast hrest, hlast]

/-- Lines can follow each other if the first ones leave no line open. -/
theorem Lined.append {lines more : List (List Char)} (h : Lined lines)
    (hend : EndsLine lines.flatten) (hmore : Lined more) :
    Lined (lines ++ more) ∧ lines.flatten.count '\n' = lines.length := by
  induction h with
  | nil => exact ⟨hmore, rfl⟩
  | @last cs hcs hne =>
    rw [List.flatten_singleton] at hend
    rcases hend with hnil | hlast
    · exact absurd hnil hne
    · exact absurd (List.mem_of_getLast? hlast) hcs
  | @cons cs lines hcs _ ih =>
    rw [List.flatten_cons] at hend ⊢
    obtain ⟨hlined, hcount⟩ := ih hend.of_append
    refine ⟨.cons hcs hlined, ?_⟩
    rw [List.count_append, List.count_append, List.count_singleton_self, List.count_eq_zero.mpr hcs,
      hcount, List.length_cons]
    omega

theorem linesOf_append_of_endsLine {front : List Char} (h : EndsLine front) (back : List Char) :
    linesOf (front ++ back) = linesOf front ++ linesOf back := by
  have hend : EndsLine (linesOf front).flatten := by rwa [flatten_linesOf]
  obtain ⟨hlined, -⟩ := (lined_linesOf front).append hend (lined_linesOf back)
  have hlines := hlined.linesOf_eq
  rwa [List.flatten_append, flatten_linesOf, flatten_linesOf] at hlines

theorem length_linesOf {text : List Char} (h : EndsLine text) :
    (linesOf text).length = text.count '\n' := by
  have hend : EndsLine (linesOf text).flatten := by rwa [flatten_linesOf]
  obtain ⟨-, hcount⟩ := (lined_linesOf text).append hend .nil
  rw [← hcount, flatten_linesOf]

/-- Every line that another one follows ends with a line feed. -/
theorem Lined.count_before {before after : List (List Char)} {line : List Char}
    (h : Lined (before ++ line :: after)) : before.flatten.count '\n' = before.length := by
  induction before with
  | nil => rfl
  | cons first before ih =>
    rw [List.cons_append] at h
    generalize hbehind : before ++ line :: after = behind at h ih
    cases h with
    | last _ _ => simp at hbehind
    | cons hfirst hlines =>
      rw [List.flatten_cons, List.count_append, List.count_append, List.count_singleton_self,
        List.count_eq_zero.mpr hfirst, ih hlines, List.length_cons]
      omega

theorem Line.newline_not_mem_content {text raw : List Char} (h : raw ∈ linesOf text) :
    '\n' ∉ (Line.ofChars raw).content := by
  obtain ⟨cs, hcs, rfl | rfl⟩ := mem_linesOf h
  · rwa [ofChars_of_not_mem hcs]
  · have hrev : '\n' ∉ cs.reverse := by simpa using hcs
    rw [ofChars, List.reverse_append, List.reverse_singleton, List.singleton_append]
    split
    · next content he =>
      rw [(List.cons.inj he).2] at hrev
      simpa using hrev
    · next content _ he =>
      rw [(List.cons.inj he).2] at hrev
      simpa using hrev
    · next hnone => exact absurd rfl (hnone cs.reverse)

end TemplateViews
