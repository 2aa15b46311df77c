import TemplateViews.Text.Split

/-! Pieces of a text. Joined with their separator again they are the text, and a text
made of pieces without the separator is cut into them. -/

namespace TemplateViews

theorem joinWith_cons {separator piece : List Char} {pieces : List (List Char)}
    (h : pieces ≠ []) :
    joinWith separator (piece :: pieces) = piece ++ separator ++ joinWith separator pieces := by
  cases pieces with
  | nil => exact absurd rfl h
  | cons next rest => rfl

theorem joinWith_concat {separator last : List Char} {pieces : List (List Char)}
    (h : pieces ≠ []) :
    joinWith separator (pieces ++ [last]) = joinWith separator pieces ++ separator ++ last := by
  induction pieces with
  | nil => exact absurd rfl h
  | cons piece pieces ih =>
    by_cases hnil : pieces = []
    · rw [hnil]
      rfl
    · rw [List.cons_append, joinWith_cons (by simp), joinWith_cons hnil, ih hnil]
      simp only [List.append_assoc]

theorem consPiece_ne_nil (c : Char) (pieces : List (List Char)) : consPiece c pieces ≠ [] := by
  cases pieces <;> simp [consPiece]

theorem joinWith_consPiece (separator : List Char) (c : Char) (pieces : List (List Char)) :
    joinWith separator (consPiece c pieces) = c :: joinWith separator pieces := by
  cases pieces with
  | nil => rfl
  | cons piece rest =>
    cases rest with
    | nil => rfl
    | cons next rest => rfl

theorem mem_joinWith {separator piece : List Char} {pieces : List (List Char)} {c : Char}
    (hpiece : piece ∈ pieces) (hc : c ∈ piece) : c ∈ joinWith separator pieces := by
  induction pieces with
  | nil => simp at hpiece
  | cons first rest ih =>
    by_cases hnil : rest = []
    · subst hnil
      rw [List.mem_singleton.mp hpiece] at hc
      exact hc
    · rw [joinWith_cons hnil]
      rcases List.mem_cons.mp hpiece with rfl | hpiece
      · simp [hc]
      · simp [ih hpiece]

theorem splitAt_cons (separator c : Char) (cs : List Char) : splitAt separator (c :: cs) =
    if c = separator then [] :: splitAt separator cs else consPiece c (splitAt separator cs) := rfl

theorem splitAt_ne_nil (separator : Char) (cs : List Char) : splitAt separator cs ≠ [] := by
  cases cs with
  | nil => simp [splitAt]
  | cons c cs =>
    rw [splitAt_cons]
    split
    · simp
    · exact consPiece_ne_nil c _

theorem joinWith_splitAt (separator : Char) (cs : List Char) :
    joinWith [separator] (splitAt separator cs) = cs := by
  induction cs with
  | nil => rfl
  | cons c cs ih =>
    rw [splitAt_cons]
    split
    · next hc => rw [joinWith_cons (splitAt_ne_nil separator cs), ih, hc, List.nil_append]; rfl
    · rw [joinWith_consPiece, ih]

theorem splitAt_of_not_mem {separator : Char} {cs : List Char} (h : separator ∉ cs) :
    splitAt separator cs = [cs] := by
  induction cs with
  | nil => rfl
  | cons c cs ih =>
    rw [List.mem_cons, not_or] at h
    rw [splitAt_cons, if_neg (Ne.symm h.1), ih h.2]
    rfl

theorem splitAt_append_separator (separator : Char) (cs rest : List Char) :
    splitAt separator (cs ++ separator :: rest) = splitAt separator cs ++ splitAt separator rest := by
  induction cs with
  | nil => rw [List.nil_append, splitAt_cons, if_pos rfl]; rfl
  | cons c cs ih =>
    rw [List.cons_append, splitAt_cons, splitAt_cons, ih]
    split
    · rfl
    · obtain ⟨piece, pieces, hpieces⟩ := List.exists_cons_of_ne_nil (splitAt_ne_nil separator cs)
      rw [hpieces]
      rfl

/-- Pieces without the separator are what a text is cut into that is made of them. -/
theorem splitAt_joinWith {separator : Char} {pieces : List (List Char)} (hne : pieces ≠ [])
    (h : ∀ piece ∈ pieces, separator ∉ piece) :
    splitAt separator (joinWith [separator] pieces) = pieces := by
  induction pieces with
  | nil => exact absurd rfl hne
  | cons piece pieces ih =>
    obtain ⟨hpiece, hpieces⟩ := List.forall_mem_cons.mp h
    by_cases hnil : pieces = []
    · rw [hnil]
      exact splitAt_of_not_mem hpiece
    · rw [joinWith_cons hnil, List.append_assoc, List.singleton_append, splitAt_append_separator,
        splitAt_of_not_mem hpiece, ih hnil hpieces]
      rfl

theorem not_mem_of_mem_splitAt {separator : Char} {cs piece : List Char}
    (h : piece ∈ splitAt separator cs) : separator ∉ piece := by
  induction cs generalizing piece with
  | nil =>
    rw [List.mem_singleton.mp h]
    exact List.not_mem_nil
  | cons c cs ih =>
    rw [splitAt_cons] at h
    split at h
    · rcases List.mem_cons.mp h with rfl | hrest
      · exact List.not_mem_nil
      · exact ih hrest
    · next hc =>
      obtain ⟨first, pieces, hpieces⟩ := List.exists_cons_of_ne_nil (splitAt_ne_nil separator cs)
      rw [hpieces] at h ih
      rcases List.mem_cons.mp h with rfl | hrest
      · rw [List.mem_cons, not_or]
        exact ⟨Ne.symm hc, ih List.mem_cons_self⟩
      · exact ih (List.mem_cons_of_mem _ hrest)

/-- What is written behind a text without the separator ends its last piece. -/
theorem exists_splitAt_append (separator : Char) (start : List Char) :
    ∃ init last, ∀ ending, separator ∉ ending →
      splitAt separator (start ++ ending) = init ++ [last ++ ending] := by
  induction start with
  | nil => exact ⟨[], [], fun ending hending => splitAt_of_not_mem hending⟩
  | cons c start ih =>
    obtain ⟨init, last, hsplit⟩ := ih
    by_cases hc : c = separator
    · refine ⟨[] :: init, last, fun ending hending => ?_⟩
      rw [List.cons_append, splitAt_cons, if_pos hc, hsplit ending hending, List.cons_append]
    cases init with
    | nil =>
      refine ⟨[], c :: last, fun ending hending => ?_⟩
      rw [List.cons_append, splitAt_cons, if_neg hc, hsplit ending hending]
      rfl
    | cons first init =>
      refine ⟨(c :: first) :: init, last, fun ending hending => ?_⟩
      rw [List.cons_append, splitAt_cons, if_neg hc, hsplit ending hending]
      rfl

theorem splitColons_ne_nil (cs : List Char) : splitColons cs ≠ [] := by
  fun_induction splitColons cs with
  | case1 => simp
  | case2 rest ih => simp
  | case3 c rest hcolons ih => exact consPiece_ne_nil c _

theorem joinWith_splitColons (cs : List Char) : joinWith [':', ':'] (splitColons cs) = cs := by
  fun_induction splitColons cs with
  | case1 => rfl
  | case2 rest ih => rw [joinWith_cons (splitColons_ne_nil rest), ih]; rfl
  | case3 c rest hcolons ih => rw [joinWith_consPiece, ih]

theorem mem_of_mem_splitColons {cs piece : List Char} {c : Char} (hpiece : piece ∈ splitColons cs)
    (hc : c ∈ piece) : c ∈ cs := by
  rw [← joinWith_splitColons cs]
  exact mem_joinWith hpiece hc

theorem splitColons_of_not_mem {cs : List Char} (h : ':' ∉ cs) : splitColons cs = [cs] := by
  fun_induction splitColons cs with
  | case1 => rfl
  | case2 rest ih => simp at h
  | case3 c rest hcolons ih =>
    rw [ih fun hrest => h (List.mem_cons_of_mem _ hrest)]
    rfl

theorem splitColons_append {cs : List Char} (rest : List Char) (h : ':' ∉ cs) :
    splitColons (cs ++ [':', ':'] ++ rest) = cs :: splitColons rest := by
  induction cs with
  | nil => rfl
  | cons c cs ih =>
    have hc : c ≠ ':' := fun hc => h (by simp [hc])
    have hrest := ih fun hcs => h (List.mem_cons_of_mem _ hcs)
    rw [List.cons_append, List.cons_append, splitColons, hrest]
    · rfl
    · simp [hc]

theorem hasColons_append (cs rest : List Char) : hasColons (cs ++ [':', ':'] ++ rest) = true := by
  induction cs with
  | nil => rfl
  | cons c cs ih =>
    rw [List.cons_append, List.cons_append]
    unfold hasColons
    split
    · contradiction
    · rfl
    · next heq =>
      obtain ⟨-, rfl⟩ := List.cons.inj heq
      exact ih

theorem untilColons_of_not_infix {cs : List Char} (h : ¬ [':', ':'] <:+: cs) :
    untilColons cs = cs := by
  fun_induction untilColons cs with
  | case1 => rfl
  | case2 rest => exact absurd ⟨[], rest, rfl⟩ h
  | case3 c rest hcolons ih => rw [ih fun hrest => h (List.infix_cons_iff.mpr (.inr hrest))]

theorem afterColons_of_not_mem {cs : List Char} (h : ':' ∉ cs) : afterColons cs = cs := by
  have hnone : ¬ [':', ':'] <:+: cs.reverse := fun hcolons =>
    h (List.mem_reverse.mp (hcolons.subset List.mem_cons_self))
  rw [afterColons, untilColons_of_not_infix hnone, List.reverse_reverse]

def colons (count : Nat) : List Char := (List.replicate count [':', ':']).flatten

theorem exists_colons_dropColons (cs : List Char) :
    ∃ count, cs = colons count ++ dropColons cs := by
  fun_induction dropColons cs with
  | case1 rest ih =>
    obtain ⟨count, hcount⟩ := ih
    refine ⟨count + 1, ?_⟩
    rw [colons, List.replicate_succ, List.flatten_cons, List.append_assoc, ← colons, ← hcount]
    rfl
  | case2 cs hcolons => exact ⟨0, rfl⟩

theorem dropColons_of_head {cs : List Char} (h : ∀ c ∈ cs.head?, c ≠ ':') : dropColons cs = cs := by
  unfold dropColons
  split
  · exact absurd rfl (h ':' rfl)
  · rfl

theorem dropColons_colons {cs : List Char} (count : Nat) (h : ∀ c ∈ cs.head?, c ≠ ':') :
    dropColons (colons count ++ cs) = cs := by
  induction count with
  | zero => exact dropColons_of_head h
  | succ count ih =>
    rw [colons, List.replicate_succ, List.flatten_cons, List.append_assoc, ← colons]
    exact ih

theorem mem_colons {count : Nat} {c : Char} (h : c ∈ colons count) : c = ':' := by
  obtain ⟨pair, hpair, hc⟩ := List.mem_flatten.mp h
  rw [List.eq_of_mem_replicate hpair] at hc
  simpa using hc

end TemplateViews
