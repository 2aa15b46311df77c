import TemplateViews.Markup.Line
import TemplateViews.Proofs.Markup.Body
import TemplateViews.Proofs.Text.NamePath
import TemplateViews.Proofs.Text.Trim

/-! The grammar of markup lines. A line is read if and only if it is made of pieces that
fit where they stand; the pieces are then determined, and the parts of the line are what
the pieces mean, in order. -/

namespace TemplateViews.Markup

/-- A piece of the grammar in front of the rest of a line. -/
def Piece.Fits (rest : List Char) : Piece → Prop
  | .run text => text ≠ [] ∧ '@' ∉ text ∧ ∀ c ∈ rest.head?, c = '@'
  | .atSign => True
  | .expression body => trim body ≠ [] ∧ IsBody '(' ')' 0 body
  | .code body => IsBody '{' '}' 0 body
  | .path names => IsNamePath ['.'] names ∧
    ∀ longer, IsNamePath ['.'] longer → longer <+: names ++ rest → longer.length ≤ names.length

/-- A line as pieces of the grammar. -/
inductive Decomposes : List Char → List Piece → Prop
  | nil : Decomposes [] []
  | cons {piece : Piece} {rest : List Char} {pieces : List Piece} (hfits : piece.Fits rest)
      (h : Decomposes rest pieces) : Decomposes (piece.written ++ rest) (piece :: pieces)

/-- The parts that pieces stand for; bodies are trimmed and blank code stands for nothing. -/
inductive Means : List Piece → List Part → Prop
  | nil : Means [] []
  | run {pieces : List Piece} {parts : List Part} (text : List Char) (h : Means pieces parts) :
      Means (.run text :: pieces) (.text (String.ofList text) :: parts)
  | atSign {pieces : List Piece} {parts : List Part} (h : Means pieces parts) :
      Means (.atSign :: pieces) (.text "@" :: parts)
  | expression {pieces : List Piece} {parts : List Part} (body : List Char)
      (h : Means pieces parts) :
      Means (.expression body :: pieces) (.value (String.ofList (trim body)) :: parts)
  | code {pieces : List Piece} {parts : List Part} {body : List Char} (hbody : trim body ≠ [])
      (h : Means pieces parts) :
      Means (.code body :: pieces) (.statements (String.ofList (trim body)) :: parts)
  | blank {pieces : List Piece} {parts : List Part} {body : List Char} (hbody : trim body = [])
      (h : Means pieces parts) : Means (.code body :: pieces) parts
  | path {pieces : List Piece} {parts : List Part} (names : List Char) (h : Means pieces parts) :
      Means (.path names :: pieces) (.value (String.ofList names) :: parts)

theorem readNames_name_append {name rest : List Char} (h : ∀ c ∈ name, isNamePart c = true) :
    (readNames (name ++ rest)).1 = name ++ (readNames rest).1 := by
  induction name with
  | nil => rfl
  | cons c name ih =>
    have hc := h c (by simp)
    rw [List.cons_append, readNames]
    simp [hc, ih fun d hd => h d (by simp [hd])]

theorem readNames_dot {rest : List Char} (h : rest.head?.any isNameStart = true) :
    (readNames ('.' :: rest)).1 = '.' :: (readNames rest).1 := by
  rw [readNames]
  simp [h]

theorem prefix_readNames {names cs : List Char} (h : IsNamePath ['.'] names)
    (hahead : names <+: cs) : names <+: (readNames cs).1 := by
  induction h generalizing cs with
  | single hname =>
    obtain ⟨rest, rfl⟩ := hahead
    rw [readNames_name_append fun c hc => isNamePart_of_mem_identifier hname hc]
    exact List.prefix_append _ _
  | @cons name more hname hmore ih =>
    obtain ⟨rest, rfl⟩ := hahead
    obtain ⟨c, tail, hhead, hstart⟩ := hmore.head
    have hdot : (more ++ rest).head?.any isNameStart = true := by simp [hhead, hstart]
    have hread : (readNames (name ++ ['.'] ++ more ++ rest)).1 =
        name ++ ['.'] ++ (readNames (more ++ rest)).1 := by
      simp only [List.append_assoc, List.cons_append, List.nil_append]
      rw [readNames_name_append fun c hc => isNamePart_of_mem_identifier hname hc,
        readNames_dot hdot]
    rw [hread]
    exact (List.prefix_append_right_inj _).mpr (ih (List.prefix_append _ _))

/-- What is read behind an identifier continues its path. -/
theorem isNamePath_readNames_aux (cs : List Char) :
    (∀ name, isIdentifier name = true → IsNamePath ['.'] (name ++ (readNames cs).1)) ∧
      (cs.head?.any isNameStart = true → IsNamePath ['.'] (readNames cs).1) := by
  induction cs with
  | nil => exact ⟨fun name hname => by simpa [readNames] using .single hname, by simp⟩
  | cons c rest ih =>
    constructor
    · intro name hname
      by_cases hc : isNamePart c = true
      · have hmore : isIdentifier (name ++ [c]) = true := isIdentifier_append hname (by simpa using hc)
        simpa [readNames, hc] using ih.1 (name ++ [c]) hmore
      · by_cases hdot : c = '.' ∧ rest.head?.any isNameStart = true
        · obtain ⟨rfl, hrest⟩ := hdot
          simpa [readNames_dot hrest] using IsNamePath.cons hname (ih.2 hrest)
        · have hstop : (readNames (c :: rest)).1 = [] := by
            rw [readNames]
            simp only [hc, Bool.false_or, Bool.and_eq_true, beq_iff_eq, hdot, if_false]
          simpa [hstop] using .single hname
    · intro hstart
      have hc : isNameStart c = true := by simpa using hstart
      have hfirst : isIdentifier [c] = true := by simpa [isIdentifier] using hc
      simpa [readNames, isNamePart_of_isNameStart hc] using ih.1 [c] hfirst

theorem readNames_eq_iff {c : Char} {cs names rest : List Char} (hc : isNameStart c = true) :
    readNames (c :: cs) = (names, rest) ↔
      c :: cs = names ++ rest ∧ (Piece.path names).Fits rest := by
  have hpath := (isNamePath_readNames_aux (c :: cs)).2 (by simpa using hc)
  have hwhole := readNames_append (c :: cs)
  constructor
  · intro h
    rw [h] at hpath hwhole
    refine ⟨hwhole.symm, hpath, fun longer hlonger hahead => ?_⟩
    rw [hwhole] at hahead
    have hle := (prefix_readNames hlonger hahead).length_le
    rwa [h] at hle
  · rintro ⟨he, hnames, hlongest⟩
    have hahead : names <+: (readNames (c :: cs)).1 :=
      prefix_readNames hnames (he ▸ List.prefix_append _ _)
    have hle : (readNames (c :: cs)).1.length ≤ names.length := by
      refine hlongest _ hpath ?_
      rw [← he]
      exact ⟨_, hwhole⟩
    have hread : (readNames (c :: cs)).1 = names := (hahead.eq_of_length_le hle).symm
    have hrest : names ++ (readNames (c :: cs)).2 = names ++ rest := by
      rw [hread] at hwhole
      exact hwhole.trans he
    exact Prod.ext hread (List.append_cancel_left hrest)

theorem readPiece_text_iff {c : Char} {cs rest : List Char} {piece : Piece} (hc : c ≠ '@') :
    readPiece c cs = .ok (piece, rest) ↔
      ∃ text, piece = .run text ∧ c :: cs = text ++ rest ∧ piece.Fits rest := by
  have hread : readPiece c cs =
      .ok (.run ((c :: cs).takeWhile (· ≠ '@')), (c :: cs).dropWhile (· ≠ '@')) := by
    simp [readPiece, hc]
  rw [hread]
  constructor
  · intro h
    obtain ⟨rfl, rfl⟩ := by simpa only [Except.ok.injEq, Prod.mk.injEq] using h
    refine ⟨_, rfl, List.takeWhile_append_dropWhile.symm, by simp [hc], ?_, ?_⟩
    · intro hmem
      simpa using List.mem_takeWhile_imp hmem
    · intro d hd
      simpa using head_dropWhile d hd
  · rintro ⟨text, rfl, he, hne, hat, hhead⟩
    have htext : ∀ d ∈ text, decide (d ≠ '@') = true := by
      intro d hd
      rw [decide_eq_true_eq]
      rintro rfl
      exact hat hd
    have hrest : ∀ d ∈ rest.head?, decide (d ≠ '@') = false := by
      intro d hd
      simpa using hhead d hd
    rw [he, takeWhile_append_of_head htext hrest, dropWhile_append_of_head htext hrest]

theorem readBody_eq_some_iff_isBody {opening closing : Char} {cs body rest : List Char}
    (hopening : opening ≠ closing) (hclosing : closing ≠ '"') :
    readBody opening closing {} cs = some (body, rest) ↔
      cs = body ++ closing :: rest ∧ IsBody opening closing 0 body :=
  readBody_eq_some_iff hopening hclosing

theorem fits_of_readConstruct {d : Char} {cs rest : List Char} {piece : Piece}
    (h : readConstruct d cs = .ok (piece, rest)) : piece.Fits rest := by
  unfold readConstruct at h
  split at h
  · obtain ⟨rfl, rfl⟩ := by simpa using h
    trivial
  · split at h
    · split at h
      · cases h
      · next hread =>
        split at h
        · cases h
        · next htrim =>
          obtain ⟨rfl, rfl⟩ := by simpa using h
          exact ⟨htrim, ((readBody_eq_some_iff_isBody (by decide) (by decide)).mp hread).2⟩
    · split at h
      · split at h
        · cases h
        · next hread =>
          obtain ⟨rfl, rfl⟩ := by simpa using h
          exact ((readBody_eq_some_iff_isBody (by decide) (by decide)).mp hread).2
      · split at h
        · next hstart =>
          obtain ⟨rfl, rfl⟩ := by simpa using h
          exact ((readNames_eq_iff hstart).mp rfl).2
        · cases h

theorem readConstruct_path {d : Char} {cs names rest : List Char} (he : d :: cs = names ++ rest)
    (hfits : (Piece.path names).Fits rest) :
    readConstruct d cs = .ok (.path names, rest) := by
  have hstart : isNameStart d = true := by
    obtain ⟨c, tail, rfl, hc⟩ := hfits.1.head
    obtain rfl : d = c := by simpa using congrArg List.head? he
    exact hc
  have hread := (readNames_eq_iff hstart).mpr ⟨he, hfits⟩
  have hne (c : Char) (hc : isNameStart c = false) : d ≠ c := by
    rintro rfl
    rw [hc] at hstart
    cases hstart
  simp [readConstruct, hne '@' (by decide), hne '(' (by decide), hne '{' (by decide), hstart, hread]

/-- A piece is read exactly where it is written and fits. -/
theorem readPiece_eq_ok_iff {c : Char} {cs rest : List Char} {piece : Piece} :
    readPiece c cs = .ok (piece, rest) ↔ c :: cs = piece.written ++ rest ∧ piece.Fits rest := by
  constructor
  · intro h
    refine ⟨readPiece_eq_ok h, ?_⟩
    by_cases hc : c = '@'
    · cases cs with
      | nil => simp [readPiece, hc] at h
      | cons d cs => exact fits_of_readConstruct (by simpa only [readPiece, hc, if_true] using h)
    · obtain ⟨text, rfl, -, hfits⟩ := (readPiece_text_iff hc).mp h
      exact hfits
  · rintro ⟨he, hfits⟩
    cases piece with
    | run text =>
      have hc : c ≠ '@' := by
        rintro rfl
        obtain ⟨hne, hat, -⟩ := hfits
        cases text with
        | nil => exact hne rfl
        | cons t text =>
          obtain ⟨rfl, -⟩ := List.cons.inj (he : '@' :: cs = t :: (text ++ rest))
          exact hat List.mem_cons_self
      exact (readPiece_text_iff hc).mpr ⟨text, rfl, he, hfits⟩
    | atSign =>
      obtain ⟨rfl, rfl⟩ := List.cons.inj he
      rfl
    | expression body =>
      obtain ⟨rfl, hcs⟩ := List.cons.inj he
      have hread : readBody '(' ')' {} (body ++ ')' :: rest) = some (body, rest) :=
        (readBody_eq_some_iff_isBody (by decide) (by decide)).mpr ⟨rfl, hfits.2⟩
      have he : cs = '(' :: (body ++ ')' :: rest) := by simpa using hcs
      rw [he]
      simp [readPiece, readConstruct, hread, hfits.1]
    | code body =>
      obtain ⟨rfl, hcs⟩ := List.cons.inj he
      have hread : readBody '{' '}' {} (body ++ '}' :: rest) = some (body, rest) :=
        (readBody_eq_some_iff_isBody (by decide) (by decide)).mpr ⟨rfl, hfits⟩
      have he : cs = '{' :: (body ++ '}' :: rest) := by simpa using hcs
      rw [he]
      simp [readPiece, readConstruct, hread]
    | path names =>
      obtain ⟨rfl, hcs⟩ := List.cons.inj he
      obtain ⟨d, tail, hnames, -⟩ := hfits.1.head
      have he : cs = d :: (tail ++ rest) := by simpa [hnames] using hcs
      rw [he] at hcs ⊢
      exact readConstruct_path hcs hfits

theorem Piece.Fits.written_ne_nil {piece : Piece} {rest : List Char} (h : piece.Fits rest) :
    piece.written ≠ [] := by
  cases piece with
  | run text => exact h.1
  | atSign => simp [written]
  | expression body => simp [written]
  | code body => simp [written]
  | path names => simp [written]

theorem readPieces_of_readPiece {c : Char} {cs rest : List Char} {piece : Piece}
    (h : readPiece c cs = .ok (piece, rest)) :
    readPieces (c :: cs) = (piece :: (readPieces rest).1, (readPieces rest).2) := by
  rw [readPieces]
  split
  · next he => simp [h] at he
  · next he =>
    obtain ⟨rfl, rfl⟩ := by simpa [h] using he
    rfl

/-- The pieces of a line are its decomposition, so it has at most one. -/
theorem readPieces_eq_iff {cs : List Char} {pieces : List Piece} :
    readPieces cs = (pieces, none) ↔ Decomposes cs pieces := by
  constructor
  · intro h
    fun_induction readPieces cs generalizing pieces with
    | case1 =>
      obtain rfl : [] = pieces := by simpa using h
      exact .nil
    | case2 c cs problem hread => simp at h
    | case3 c cs piece rest hread ih =>
      obtain ⟨rfl, hnone⟩ := by simpa using h
      obtain ⟨he, hfits⟩ := readPiece_eq_ok_iff.mp hread
      rw [he]
      exact .cons hfits (ih (Prod.ext rfl hnone))
  · intro h
    induction h with
    | nil => simp [readPieces]
    | @cons piece rest pieces hfits h ih =>
      obtain ⟨c, cs, hcs⟩ := List.exists_cons_of_ne_nil
        (show piece.written ++ rest ≠ [] by simp [hfits.written_ne_nil])
      have hread : readPiece c cs = .ok (piece, rest) := readPiece_eq_ok_iff.mpr ⟨hcs.symm, hfits⟩
      rw [hcs, readPieces_of_readPiece hread, ih]

theorem Decomposes.unique {line : List Char} {pieces others : List Piece}
    (h : Decomposes line pieces) (hothers : Decomposes line others) : pieces = others := by
  have he := (readPieces_eq_iff.mpr h).symm.trans (readPieces_eq_iff.mpr hothers)
  exact congrArg Prod.fst he

theorem Decomposes.flatMap_written {line : List Char} {pieces : List Piece}
    (h : Decomposes line pieces) : pieces.flatMap Piece.written = line := by
  induction h with
  | nil => rfl
  | cons _ _ ih => rw [List.flatMap_cons, ih]

theorem means_iff {pieces : List Piece} {parts : List Part} :
    Means pieces parts ↔ parts = pieces.filterMap Piece.part? := by
  constructor
  · intro h
    induction h with
    | nil => rfl
    | run text _ ih => rw [ih]; rfl
    | atSign _ ih => rw [ih]; rfl
    | expression body _ ih => rw [ih]; rfl
    | code hbody _ ih => rw [ih]; simp [Piece.part?, hbody]
    | blank hbody _ ih => rw [ih]; simp [Piece.part?, hbody]
    | path names _ ih => rw [ih]; rfl
  · rintro rfl
    induction pieces with
    | nil => exact .nil
    | cons piece pieces ih =>
      cases piece with
      | run text => exact .run text ih
      | atSign => exact .atSign ih
      | expression body => exact .expression body ih
      | code body =>
        by_cases hbody : trim body = []
        · simpa [Piece.part?, hbody] using Means.blank hbody ih
        · simpa [Piece.part?, hbody] using Means.code hbody ih
      | path names => exact .path names ih

theorem readParts_eq_ok_iff {number : Nat} {line : List Char} {parts : List Part} :
    readParts number line = .ok parts ↔ ∃ pieces, Decomposes line pieces ∧ Means pieces parts := by
  constructor
  · intro h
    cases hread : readPieces line with
    | mk pieces problem =>
      cases problem with
      | some problem => simp [readParts, hread] at h
      | none =>
        obtain rfl : pieces.filterMap Piece.part? = parts := by simpa [readParts, hread] using h
        exact ⟨pieces, readPieces_eq_iff.mp hread, means_iff.mpr rfl⟩
  · rintro ⟨pieces, hpieces, hmeans⟩
    rw [means_iff.mp hmeans]
    simp [readParts, readPieces_eq_iff.mpr hpieces]

/-- A line is read exactly if it is made of pieces of the grammar. The pieces are
determined and make up the line, and the parts are what they mean, in order. -/
theorem readParts_accepts_grammar (number : Nat) (line : List Char) :
    (∀ parts, readParts number line = .ok parts ↔
      ∃ pieces, Decomposes line pieces ∧ Means pieces parts) ∧
    (∀ pieces others, Decomposes line pieces → Decomposes line others → pieces = others) ∧
    (∀ pieces, Decomposes line pieces → pieces.flatMap Piece.written = line) :=
  ⟨fun _ => readParts_eq_ok_iff, fun _ _ => Decomposes.unique, fun _ => Decomposes.flatMap_written⟩

example : readParts 1 "a@(f(\")\"))@x.y.@@".toList =
    .ok [.text "a", .value "f(\")\")", .value "x.y", .text ".", .text "@"] := by decide +kernel

end TemplateViews.Markup
