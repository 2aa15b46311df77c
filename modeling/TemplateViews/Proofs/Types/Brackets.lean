import TemplateViews.Proofs.Text.Split
import TemplateViews.Types.Name

/-! Texts in which every bracket is closed. Cutting at commas goes through them without a
cut, and what they add to the nesting does not depend on what follows. -/

namespace TemplateViews

def prependPiece (cs : List Char) (pieces : List (List Char)) : List (List Char) :=
  cs.foldr consPiece pieces

/-- Cutting at commas goes through a text without a cut, from some depth on. -/
def Passes (least : Int) (cs : List Char) : Prop :=
  ∀ depth rest, least ≤ depth →
    splitArguments depth (cs ++ rest) = (splitArguments depth rest).map (prependPiece cs)

variable {least : Int} {cs ds : List Char}

theorem prependPiece_cons (cs piece : List Char) (pieces : List (List Char)) :
    prependPiece cs (piece :: pieces) = (cs ++ piece) :: pieces := by
  induction cs with
  | nil => rfl
  | cons c cs ih =>
    rw [prependPiece, List.foldr_cons, ← prependPiece, ih]
    rfl

theorem passes_singleton {c : Char} (hopen : c ≠ '<') (hclose : c ≠ '>')
    (hleast : 0 ≤ least) (hcomma : c = ',' → 0 < least) : Passes least [c] := by
  intro depth rest hdepth
  have hcut : ¬ (c = ',' ∧ depth = 0) := by
    rintro ⟨hc, rfl⟩
    exact absurd (hcomma hc) (by omega)
  have hstep : bracketStep depth c = depth := by simp [bracketStep, hopen, hclose]
  have hnonneg : ¬ depth < 0 := by omega
  rw [List.singleton_append, splitArguments, if_neg hcut, hstep, if_neg hnonneg]
  rfl

theorem Passes.append (hcs : Passes least cs) (hds : Passes least ds) : Passes least (cs ++ ds) := by
  intro depth rest hdepth
  rw [List.append_assoc, hcs depth _ hdepth, hds depth rest hdepth, Option.map_map]
  congr 1
  funext pieces
  simp [prependPiece]

theorem Passes.mono {more : Int} (h : Passes least cs) (hle : least ≤ more) : Passes more cs :=
  fun depth rest hdepth => h depth rest (Int.le_trans hle hdepth)

theorem passes_nil : Passes least [] := by
  intro depth rest _
  simp [show prependPiece [] = id from rfl]

theorem passes_of_plain (h : ∀ c ∈ cs, c ≠ '<' ∧ c ≠ '>' ∧ c ≠ ',') : Passes 0 cs := by
  induction cs with
  | nil => exact passes_nil
  | cons c cs ih =>
    obtain ⟨hopen, hclose, hcomma⟩ := h c (by simp)
    have hrest := ih fun d hd => h d (by simp [hd])
    exact (passes_singleton hopen hclose (Int.le_refl 0) fun hc => absurd hc hcomma).append hrest

theorem Passes.bracket (h : Passes 1 cs) : Passes 0 ('<' :: (cs ++ ['>'])) := by
  intro depth rest hdepth
  have hopen : bracketStep depth '<' = depth + 1 := rfl
  have hclose : bracketStep (depth + 1) '>' = depth := by simp [bracketStep]
  rw [List.cons_append, splitArguments, if_neg (by simp), hopen, if_neg (by omega),
    List.append_assoc, h (depth + 1) _ (by omega), List.singleton_append, splitArguments,
    if_neg (by simp), hclose, if_neg (by omega), Option.map_map, Option.map_map]
  congr 1
  funext pieces
  simp [prependPiece]

theorem passes_joinWith {texts : List (List Char)} (h : ∀ text ∈ texts, Passes 0 text) :
    Passes 1 (joinWith [','] texts) := by
  have hcomma : Passes 1 [','] := passes_singleton (by decide) (by decide) (by decide) (by decide)
  induction texts with
  | nil => exact passes_nil
  | cons text texts ih =>
    have htext : Passes 1 text := (h text (by simp)).mono (by decide)
    have hrest := ih fun t ht => h t (by simp [ht])
    by_cases hnil : texts = []
    · subst hnil
      exact htext
    · rw [joinWith_cons hnil]
      exact (htext.append hcomma).append hrest

theorem splitArguments_joinWith {texts : List (List Char)} (hne : texts ≠ [])
    (h : ∀ text ∈ texts, Passes 0 text) : splitArguments 0 (joinWith [','] texts) = some texts := by
  induction texts with
  | nil => exact absurd rfl hne
  | cons text texts ih =>
    have htext := h text (by simp)
    by_cases hnil : texts = []
    · subst hnil
      have hend := htext 0 [] (Int.le_refl 0)
      rw [List.append_nil] at hend
      rw [joinWith, hend, splitArguments, if_pos rfl, Option.map_some, prependPiece_cons,
        List.append_nil]
    · have hrest := ih hnil fun t ht => h t (by simp [ht])
      rw [joinWith_cons hnil, List.append_assoc, htext 0 _ (Int.le_refl 0), List.singleton_append,
        splitArguments, if_pos ⟨rfl, rfl⟩, hrest, Option.map_some, Option.map_some,
        prependPiece_cons, List.append_nil]

theorem joinWith_splitArguments {depth : Int} {pieces : List (List Char)}
    (h : splitArguments depth cs = some pieces) : pieces ≠ [] ∧ joinWith [','] pieces = cs := by
  induction cs generalizing depth pieces with
  | nil =>
    simp only [splitArguments, Option.ite_none_right_eq_some, Option.some.injEq] at h
    simp [← h.2, joinWith]
  | cons c cs ih =>
    simp only [splitArguments] at h
    split at h
    · next hcut =>
      obtain ⟨rest, hrest, rfl⟩ := Option.map_eq_some_iff.mp h
      obtain ⟨hne, hjoin⟩ := ih hrest
      rw [joinWith_cons hne, hjoin, hcut.1]
      exact ⟨by simp, rfl⟩
    · split at h
      · cases h
      · obtain ⟨rest, hrest, rfl⟩ := Option.map_eq_some_iff.mp h
        rw [joinWith_consPiece, (ih hrest).2]
        exact ⟨consPiece_ne_nil c rest, rfl⟩

/-- A text that nests to a depth and closes what it opens. -/
def Nests (levels : Nat) (cs : List Char) : Prop :=
  ∀ depth rest, max depth (nestingFrom depth (cs ++ rest)) =
    max (depth + levels) (nestingFrom depth rest)

theorem nests_nil : Nests 0 [] := fun _ _ => rfl

theorem nests_singleton {c : Char} (hopen : c ≠ '<') (hclose : c ≠ '>') : Nests 0 [c] := by
  intro depth rest
  rw [List.singleton_append, nestingFrom, if_neg hopen, if_neg hclose, Nat.add_zero]

theorem Nests.append {m n : Nat} (hcs : Nests m cs) (hds : Nests n ds) :
    Nests (max m n) (cs ++ ds) := by
  intro depth rest
  have hfirst := hcs depth (ds ++ rest)
  have hsecond := hds depth rest
  rw [List.append_assoc]
  omega

theorem nests_of_plain (h : ∀ c ∈ cs, c ≠ '<' ∧ c ≠ '>') : Nests 0 cs := by
  induction cs with
  | nil => exact nests_nil
  | cons c cs ih =>
    obtain ⟨hopen, hclose⟩ := h c (by simp)
    exact (nests_singleton hopen hclose).append (ih fun d hd => h d (by simp [hd]))

theorem Nests.bracket {levels : Nat} (h : Nests levels cs) :
    Nests (levels + 1) ('<' :: (cs ++ ['>'])) := by
  intro depth rest
  have hinside := h (depth + 1) ('>' :: rest)
  have hclose : nestingFrom (depth + 1) ('>' :: rest) = nestingFrom depth rest := by
    simp [nestingFrom]
  rw [hclose] at hinside
  rw [List.cons_append, nestingFrom, if_pos rfl, List.append_assoc, List.singleton_append]
  omega

theorem Nests.nesting {levels : Nat} (h : Nests levels cs) : nesting cs = levels := by
  have hend := h 0 []
  rw [List.append_nil, Nat.zero_max, Nat.zero_add] at hend
  rw [TemplateViews.nesting, hend, nestingFrom, Nat.max_zero]

end TemplateViews
