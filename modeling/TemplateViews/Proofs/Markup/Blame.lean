import TemplateViews.Proofs.Markup.Grammar

/-! Which `@` an error of a line blames: the last one that has a readable text in front of it. The
pieces in front of an `@` are read as if the line ended there, so an earlier construct that takes in
later `@` signs leaves no readable text in front of those. -/

namespace TemplateViews.Markup

/-- A text that is read without an error. -/
def Accepted (number : Nat) (cs : List Char) : Prop := ∃ parts, readParts number cs = .ok parts

/-- The last `@` of a line with an accepted text in front of it, between the texts around it. -/
structure LastAt (number : Nat) (line before after : List Char) : Prop where
  whole : line = before ++ '@' :: after
  accepted : Accepted number before
  last : ∀ before' after', line = before' ++ '@' :: after' → Accepted number before' →
    before'.length ≤ before.length

/-- What is wrong with an `@`, told by the text behind it. -/
inductive Faults : List Char → Problem → Prop
  | dangling : Faults [] .dangling
  | unexpected {c : Char} (rest : List Char) (hat : c ≠ '@') (hparen : c ≠ '(') (hbrace : c ≠ '{')
      (hname : isNameStart c = false) : Faults (c :: rest) (.unexpected c)
  | unclosedExpression {rest : List Char}
      (h : ∀ body behind, rest = body ++ ')' :: behind → ¬ IsBody '(' ')' 0 body) :
      Faults ('(' :: rest) .unclosedExpression
  | emptyExpression {body : List Char} (behind : List Char) (hbody : IsBody '(' ')' 0 body)
      (hblank : trim body = []) : Faults ('(' :: (body ++ ')' :: behind)) .emptyExpression
  | unclosedCode {rest : List Char}
      (h : ∀ body behind, rest = body ++ '}' :: behind → ¬ IsBody '{' '}' 0 body) :
      Faults ('{' :: rest) .unclosedCode

theorem prefix_append_cons_iff {c : Char} {cs front tail : List Char} (hc : c ∉ cs) :
    cs <+: front ++ c :: tail ↔ cs <+: front := by
  induction front generalizing cs with
  | nil =>
    cases cs with
    | nil => simp
    | cons d cs =>
      have hne : d ≠ c := fun h => hc (by simp [h])
      simp [List.cons_prefix_cons, hne]
  | cons d front ih =>
    cases cs with
    | nil => simp
    | cons e cs =>
      rw [List.cons_append, List.cons_prefix_cons, List.cons_prefix_cons,
        ih fun h => hc (List.mem_cons_of_mem e h)]

/-- To a piece, an `@` is the end of the line. -/
theorem fits_append_at_iff {piece : Piece} {rest tail : List Char} :
    piece.Fits (rest ++ '@' :: tail) ↔ piece.Fits rest := by
  cases piece with
  | run text => cases rest <;> simp [Piece.Fits]
  | atSign => exact Iff.rfl
  | expression body => exact Iff.rfl
  | code body => exact Iff.rfl
  | path names =>
    have hahead (longer : List Char) (h : IsNamePath ['.'] longer) :
        longer <+: names ++ (rest ++ '@' :: tail) ↔ longer <+: names ++ rest := by
      rw [← List.append_assoc]
      exact prefix_append_cons_iff (h.not_mem (by decide) (by decide))
    refine and_congr_right fun _ => forall_congr' fun longer => forall_congr' fun hlonger => ?_
    rw [hahead longer hlonger]

theorem readPieces_append_at {before : List Char} {pieces : List Piece}
    (h : Decomposes before pieces) (tail : List Char) :
    readPieces (before ++ '@' :: tail) =
      (pieces ++ (readPieces ('@' :: tail)).1, (readPieces ('@' :: tail)).2) := by
  induction h with
  | nil => rfl
  | @cons piece rest pieces hfits _ ih =>
    obtain ⟨c, cs, hcs⟩ := List.exists_cons_of_ne_nil
      (show piece.written ++ (rest ++ '@' :: tail) ≠ [] by simp)
    have hread : readPiece c cs = .ok (piece, rest ++ '@' :: tail) :=
      readPiece_eq_ok_iff.mpr ⟨hcs.symm, fits_append_at_iff.mpr hfits⟩
    rw [List.append_assoc, hcs, readPieces_of_readPiece hread, ih, List.cons_append]

theorem eq_at_of_readPiece {c : Char} {cs : List Char} {problem : Problem}
    (h : readPiece c cs = .error problem) : c = '@' := by
  by_contra hc
  simp [readPiece, hc] at h

/-- Where reading stops there is an `@`, and the pieces so far are those of the text in front. -/
theorem exists_at_of_readPieces {line : List Char} {pieces : List Piece} {problem : Problem}
    (h : readPieces line = (pieces, some problem)) :
    ∃ before after, line = before ++ '@' :: after ∧ Decomposes before pieces ∧
      readPiece '@' after = .error problem := by
  fun_induction readPieces line generalizing pieces with
  | case1 => simp at h
  | case2 c cs problem' hread =>
    obtain ⟨rfl, rfl⟩ := by simpa using h
    obtain rfl := eq_at_of_readPiece hread
    exact ⟨[], cs, rfl, .nil, hread⟩
  | case3 c cs piece rest hread ih =>
    obtain ⟨rfl, hproblem⟩ := by simpa using h
    obtain ⟨hwhole, hfits⟩ := readPiece_eq_ok_iff.mp hread
    obtain ⟨before, after, rfl, hbefore, hafter⟩ := ih (Prod.ext rfl hproblem)
    refine ⟨piece.written ++ before, after, by rw [hwhole, List.append_assoc], ?_, hafter⟩
    exact .cons (fits_append_at_iff.mp hfits) hbefore

theorem readBody_eq_none_iff {opening closing : Char} {cs : List Char}
    (hopening : opening ≠ closing) (hclosing : closing ≠ '"') :
    readBody opening closing {} cs = none ↔
      ∀ body behind, cs = body ++ closing :: behind → ¬ IsBody opening closing 0 body := by
  constructor
  · intro h body behind hcs hbody
    have hsome := (readBody_eq_some_iff_isBody hopening hclosing).mpr ⟨hcs, hbody⟩
    rw [h] at hsome
    cases hsome
  · intro h
    rw [Option.eq_none_iff_forall_ne_some]
    intro read hread
    obtain ⟨hcs, hbody⟩ := (readBody_eq_some_iff_isBody hopening hclosing).mp hread
    exact h _ _ hcs hbody

theorem readConstruct_eq_error {d : Char} {cs : List Char} {problem : Problem}
    (h : readConstruct d cs = .error problem) : Faults (d :: cs) problem := by
  unfold readConstruct at h
  split at h
  · cases h
  next hat =>
  split at h
  · next hparen =>
    subst hparen
    split at h
    · next hread =>
      cases h
      exact .unclosedExpression ((readBody_eq_none_iff (by decide) (by decide)).mp hread)
    · next body behind hread =>
      obtain ⟨rfl, hbody⟩ := (readBody_eq_some_iff_isBody (by decide) (by decide)).mp hread
      split at h
      · next hblank =>
        cases h
        exact .emptyExpression behind hbody hblank
      · cases h
  next hparen =>
  split at h
  · next hbrace =>
    subst hbrace
    split at h
    · next hread =>
      cases h
      exact .unclosedCode ((readBody_eq_none_iff (by decide) (by decide)).mp hread)
    · cases h
  next hbrace =>
  split at h
  · cases h
  · next hname =>
    cases h
    exact .unexpected cs hat hparen hbrace (by simpa using hname)

theorem readPiece_eq_error_iff {after : List Char} {problem : Problem} :
    readPiece '@' after = .error problem ↔ Faults after problem := by
  constructor
  · intro h
    cases after with
    | nil =>
      cases h
      exact .dangling
    | cons d cs => exact readConstruct_eq_error h
  · intro h
    cases h with
    | dangling => rfl
    | unexpected rest hat hparen hbrace hname =>
      simp [readPiece, readConstruct, hat, hparen, hbrace, hname]
    | unclosedExpression h =>
      simp [readPiece, readConstruct, (readBody_eq_none_iff (by decide) (by decide)).mpr h]
    | @emptyExpression body behind hbody hblank =>
      have hread : readBody '(' ')' {} (body ++ ')' :: behind) = some (body, behind) :=
        (readBody_eq_some_iff_isBody (by decide) (by decide)).mpr ⟨rfl, hbody⟩
      simp [readPiece, readConstruct, hread, hblank]
    | unclosedCode h =>
      simp [readPiece, readConstruct, (readBody_eq_none_iff (by decide) (by decide)).mpr h]

theorem accepted_iff {number : Nat} {cs : List Char} :
    Accepted number cs ↔ ∃ pieces, Decomposes cs pieces := by
  constructor
  · rintro ⟨parts, h⟩
    obtain ⟨pieces, hpieces, -⟩ := readParts_eq_ok_iff.mp h
    exact ⟨pieces, hpieces⟩
  · rintro ⟨pieces, hpieces⟩
    exact ⟨_, readParts_eq_ok_iff.mpr ⟨pieces, hpieces, means_iff.mpr rfl⟩⟩

theorem readPieces_eq_of_faults {before after : List Char} {pieces : List Piece}
    {problem : Problem} (hbefore : Decomposes before pieces) (hafter : Faults after problem) :
    readPieces (before ++ '@' :: after) = (pieces, some problem) := by
  have hread := readPiece_eq_error_iff.mpr hafter
  have hstop : readPieces ('@' :: after) = ([], some problem) := by
    rw [readPieces]
    split
    · next he =>
      cases hread.symm.trans he
      rfl
    · next he => cases hread.symm.trans he
  rw [readPieces_append_at hbefore, hstop, List.append_nil]

/-- No text up to a later `@` is accepted: its pieces would go on from those that were read. -/
theorem lastAt_of_faults {number : Nat} {before after : List Char} {pieces : List Piece}
    {problem : Problem} (hbefore : Decomposes before pieces) (hafter : Faults after problem) :
    LastAt number (before ++ '@' :: after) before after := by
  refine ⟨rfl, accepted_iff.mpr ⟨pieces, hbefore⟩, fun before' after' hline haccepted => ?_⟩
  obtain ⟨pieces', hbefore'⟩ := accepted_iff.mp haccepted
  -- both texts start the same reading, which goes no further than the pieces of the first
  have hread := readPieces_append_at hbefore' after'
  rw [← hline, readPieces_eq_of_faults hbefore hafter] at hread
  obtain ⟨hpieces, -⟩ := Prod.mk.inj hread
  rw [← hbefore.flatMap_written, ← hbefore'.flatMap_written, hpieces, List.flatMap_append,
    List.length_append]
  exact Nat.le_add_right _ _

/-- A line fails at its last `@` with an accepted text in front, for what is wrong there. -/
theorem readParts_eq_error_iff {number : Nat} {line : List Char} {e : MarkupError} :
    readParts number line = .error e ↔ ∃ before after problem,
      LastAt number line before after ∧ Faults after problem ∧
      e = ⟨number, before.length + 1 + problem.offset, problem.message⟩ := by
  constructor
  · intro h
    cases hread : readPieces line with
    | mk pieces outcome =>
      cases outcome with
      | none => simp [readParts, hread] at h
      | some problem =>
        obtain ⟨before, after, rfl, hbefore, hafter⟩ := exists_at_of_readPieces hread
        have hfaults := readPiece_eq_error_iff.mp hafter
        refine ⟨before, after, problem, lastAt_of_faults hbefore hfaults, hfaults, ?_⟩
        simpa [readParts, hread, hbefore.flatMap_written] using h.symm
  · rintro ⟨before, after, problem, hlast, hfaults, rfl⟩
    obtain ⟨pieces, hbefore⟩ := accepted_iff.mp hlast.accepted
    simp [readParts, hlast.whole, readPieces_eq_of_faults hbefore hfaults, hbefore.flatMap_written]

end TemplateViews.Markup
