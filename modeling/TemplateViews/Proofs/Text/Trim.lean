import Mathlib.Data.List.TakeWhile
import TemplateViews.Text.Blank

/-! Cutting a text where a class of characters ends, and what trimming leaves: a text
between blanks that neither starts nor ends with one. -/

namespace TemplateViews

section Cut

variable {α : Type} {p : α → Bool} {mark : α} {cs rest : List α}

theorem takeWhile_append_of_head
    (hcs : ∀ c ∈ cs, p c = true) (hrest : ∀ c ∈ rest.head?, p c = false) :
    (cs ++ rest).takeWhile p = cs := by
  rw [List.takeWhile_append_of_pos hcs]
  cases rest with
  | nil => simp
  | cons c rest => simp [hrest c rfl]

theorem dropWhile_append_of_head
    (hcs : ∀ c ∈ cs, p c = true) (hrest : ∀ c ∈ rest.head?, p c = false) :
    (cs ++ rest).dropWhile p = rest := by
  rw [List.dropWhile_append_of_pos hcs]
  cases rest with
  | nil => rfl
  | cons c rest => simp [hrest c rfl]

/-- A list is cut at a mark that is not in its front. -/
theorem cut_at_mark [DecidableEq α] (h : mark ∉ cs) (rest : List α) :
    (cs ++ mark :: rest).takeWhile (· ≠ mark) = cs ∧
      (cs ++ mark :: rest).dropWhile (· ≠ mark) = mark :: rest := by
  have hcs : ∀ c ∈ cs, decide (c ≠ mark) = true := fun c hc =>
    decide_eq_true (ne_of_mem_of_not_mem hc h)
  have hrest : ∀ c ∈ (mark :: rest).head?, decide (c ≠ mark) = false := by simp
  exact ⟨takeWhile_append_of_head hcs hrest, dropWhile_append_of_head hcs hrest⟩

/-- A list is cut at the first mark in it in one way only. -/
theorem cut_inj [DecidableEq α] {cs' rest' : List α} (h : mark ∉ cs) (h' : mark ∉ cs')
    (he : cs ++ mark :: rest = cs' ++ mark :: rest') : cs = cs' ∧ rest = rest' := by
  have hcs : cs = cs' := by
    rw [← (cut_at_mark h rest).1, he, (cut_at_mark h' rest').1]
  subst hcs
  have hrest := List.append_cancel_left he
  exact ⟨rfl, (List.cons.inj hrest).2⟩

theorem head_dropWhile : ∀ c ∈ (cs.dropWhile p).head?, p c = false := by
  intro c hc
  have h := List.head?_dropWhile_not p cs
  rw [Option.mem_def.mp hc] at h
  simpa using h

end Cut

theorem mem_of_mem_trimEnd {cs : List Char} {c : Char} (h : c ∈ trimEnd cs) : c ∈ cs := by
  have hdrop : c ∈ cs.reverse.dropWhile isBlank := by simpa [trimEnd] using h
  simpa using (List.dropWhile_sublist isBlank).subset hdrop

theorem mem_of_mem_trim {cs : List Char} {c : Char} (h : c ∈ trim cs) : c ∈ cs :=
  (List.dropWhile_sublist isBlank).subset (mem_of_mem_trimEnd h)

theorem not_blank_of_mem_getLast?_trimEnd {cs : List Char} :
    ∀ c ∈ (trimEnd cs).getLast?, isBlank c = false := by
  rw [trimEnd, List.getLast?_reverse]
  exact head_dropWhile

theorem trimEnd_prefix (cs : List Char) : trimEnd cs <+: cs := by
  have hsuffix := List.dropWhile_suffix (l := cs.reverse) isBlank
  simpa [trimEnd] using List.reverse_prefix.mpr hsuffix

theorem not_blank_of_mem_head?_trim {cs : List Char} :
    ∀ c ∈ (trim cs).head?, isBlank c = false := by
  intro c hc
  obtain ⟨rest, hrest⟩ := List.head?_eq_some_iff.mp hc
  obtain ⟨after, hafter⟩ := trimEnd_prefix (trimStart cs)
  have hstart : c ∈ (cs.dropWhile isBlank).head? := by
    rw [← trimStart, ← hafter, ← trim, hrest]
    rfl
  exact head_dropWhile c hstart

theorem trimEnd_eq_nil_iff {cs : List Char} :
    trimEnd cs = [] ↔ ∀ c ∈ cs, isBlank c = true := by
  simp [trimEnd, List.dropWhile_eq_nil_iff]

theorem trim_eq_nil_iff {cs : List Char} : trim cs = [] ↔ ∀ c ∈ cs, isBlank c = true := by
  rw [trim, trimEnd_eq_nil_iff]
  constructor
  · intro h
    have hnil : cs.dropWhile isBlank = [] := by
      by_contra hne
      obtain ⟨c, rest, hc⟩ := List.exists_cons_of_ne_nil hne
      have hvisible : isBlank c = false := head_dropWhile c (by rw [hc]; rfl)
      have hblank := h c (by rw [trimStart, hc]; exact List.mem_cons_self)
      rw [hvisible] at hblank
      cases hblank
    exact List.dropWhile_eq_nil_iff.mp hnil
  · intro h c hc
    exact h c ((List.dropWhile_sublist isBlank).subset hc)

/-- Trimming again leaves nothing only where nothing was left. -/
theorem trim_trim_eq_nil_iff {cs : List Char} : trim (trim cs) = [] ↔ trim cs = [] := by
  constructor
  · intro h
    by_contra hne
    have hblank := trim_eq_nil_iff.mp h _ (List.getLast_mem hne)
    have hvisible := not_blank_of_mem_getLast?_trimEnd _ (List.getLast?_eq_some_getLast hne)
    rw [hblank] at hvisible
    cases hvisible
  · intro h
    rw [h]
    rfl

/-- Blanks behind a text do not count. -/
theorem trim_append_blanks {after : List Char} (cs : List Char)
    (h : ∀ c ∈ after, isBlank c = true) : trim (cs ++ after) = trim cs := by
  have hnil : after.dropWhile isBlank = [] := List.dropWhile_eq_nil_iff.mpr h
  have hback : after.reverse.dropWhile isBlank = [] :=
    List.dropWhile_eq_nil_iff.mpr fun c hc => h c (List.mem_reverse.mp hc)
  unfold trim trimStart
  by_cases hcs : cs.dropWhile isBlank = []
  · rw [List.dropWhile_append, hcs, hnil]
    rfl
  · rw [List.dropWhile_append, if_neg (by simpa using hcs), trimEnd, trimEnd, List.reverse_append,
      List.dropWhile_append, hback]
    rfl

theorem exists_blanks_trim (cs : List Char) :
    ∃ before after, (∀ c ∈ before, isBlank c = true) ∧ (∀ c ∈ after, isBlank c = true) ∧
      cs = before ++ trim cs ++ after := by
  refine ⟨cs.takeWhile isBlank, ((trimStart cs).reverse.takeWhile isBlank).reverse,
    fun c hc => List.mem_takeWhile_imp hc,
    fun c hc => List.mem_takeWhile_imp (List.mem_reverse.mp hc), ?_⟩
  have hend : trim cs ++ ((trimStart cs).reverse.takeWhile isBlank).reverse = trimStart cs := by
    rw [trim, trimEnd, ← List.reverse_append, List.takeWhile_append_dropWhile, List.reverse_reverse]
  rw [List.append_assoc, hend, trimStart, List.takeWhile_append_dropWhile]

theorem trimStart_blanks {before core : List Char} (hbefore : ∀ c ∈ before, isBlank c = true)
    (hhead : ∀ c ∈ core.head?, isBlank c = false) : trimStart (before ++ core) = core :=
  dropWhile_append_of_head hbefore hhead

theorem trimEnd_blanks {core after : List Char} (hafter : ∀ c ∈ after, isBlank c = true)
    (hlast : ∀ c ∈ core.getLast?, isBlank c = false) : trimEnd (core ++ after) = core := by
  have hdrop : (core ++ after).reverse.dropWhile isBlank = core.reverse := by
    rw [List.reverse_append]
    exact dropWhile_append_of_head (by simpa using hafter) (by simpa using hlast)
  rw [trimEnd, hdrop, List.reverse_reverse]

theorem trim_blanks {before core after : List Char} (hbefore : ∀ c ∈ before, isBlank c = true)
    (hafter : ∀ c ∈ after, isBlank c = true) (hhead : ∃ c ∈ core.head?, isBlank c = false)
    (hlast : ∀ c ∈ core.getLast?, isBlank c = false) : trim (before ++ core ++ after) = core := by
  obtain ⟨first, hfirst, hvisible⟩ := hhead
  obtain ⟨rest, rfl⟩ := List.head?_eq_some_iff.mp hfirst
  have hstart : trimStart (before ++ (first :: rest ++ after)) = first :: rest ++ after :=
    trimStart_blanks hbefore fun c hc => by
      obtain rfl : first = c := by simpa using hc
      exact hvisible
  rw [List.append_assoc, trim, hstart, trimEnd_blanks hafter hlast]

theorem trim_of_ends {cs : List Char} (hhead : ∃ c ∈ cs.head?, isBlank c = false)
    (hlast : ∀ c ∈ cs.getLast?, isBlank c = false) : trim cs = cs := by
  have htrim := trim_blanks (List.forall_mem_nil _) (List.forall_mem_nil _) hhead hlast
  rwa [List.nil_append, List.append_nil] at htrim

end TemplateViews
