import TemplateViews.Text.Quoted

/-! What a quoted text is made of: it stays on one line whatever the text is. -/

namespace TemplateViews

theorem forall_mem_toDigits {P : Char → Prop} (h : ∀ digit < 16, P (Nat.digitChar digit))
    (n : Nat) : ∀ c ∈ Nat.toDigits 16 n, P c := by
  induction n using Nat.strongRecOn with
  | ind n ih =>
    by_cases hn : n < 16
    · rw [Nat.toDigits_of_lt_base hn]
      exact List.forall_mem_singleton.mpr (h n hn)
    · rw [Nat.toDigits_of_base_le (by decide) (by omega), List.forall_mem_append]
      exact ⟨ih (n / 16) (by omega),
        List.forall_mem_singleton.mpr (h _ (Nat.mod_lt n (by decide)))⟩

theorem newline_not_mem_quoteChar (c : Char) : '\n' ∉ quoteChar c := by
  unfold quoteChar
  repeat' split
  · decide
  · decide
  · decide
  · decide
  · decide
  · decide
  · next hnewline _ _ _ => simpa using Ne.symm hnewline
  · intro h
    have hdigits : '\n' ∈ Nat.toDigits 16 c.toNat := by simpa using h
    exact forall_mem_toDigits (P := (· ≠ '\n')) (by decide) c.toNat '\n' hdigits rfl

theorem newline_not_mem_quoted (text : String) : '\n' ∉ (quoted text).toList := by
  simp [quoted, newline_not_mem_quoteChar]

end TemplateViews
