import TemplateViews.Proofs.Markup.Blame
import TemplateViews.Proofs.Markup.Boundaries

/-! Columns in characters from positions in bytes. The scan of the bytes of a line reads what the
characters of the line say, and every stretch that it cuts out is a text of whole characters; so the
column of an error is the place of the blamed `@` among the characters. -/

namespace TemplateViews.Markup

/-- A trace comes to a result, and every stretch of it stands between characters of the line. -/
structure Trace.Agrees {α : Type} (trace : Trace α) (line : List Char) (result : α) : Prop where
  result : trace.result = result
  slices : ∀ slice ∈ trace.slices, OnBoundaries line slice.1 slice.2

section Construct

theorem drop_encode (front rest : List Char) :
    (Utf8.encode (front ++ rest)).drop (size front) = Utf8.encode rest := by
  rw [Utf8.encode_append]
  exact List.drop_left

theorem size_append_at (before : List Char) : size (before ++ ['@']) = size before + 1 := by
  rw [size_append, size_cons (by decide)]
  rfl

theorem drop_encode_at (before after : List Char) :
    (Utf8.encode (before ++ '@' :: after)).drop (size before + 1) = Utf8.encode after := by
  have hdrop := drop_encode (before ++ ['@']) after
  rwa [size_append_at, List.append_assoc] at hdrop

theorem errorAt_encode (number : Nat) (front rest : List Char) (problem : Problem) :
    errorAt number (Utf8.encode (front ++ rest)) (size front) problem =
      ⟨number, front.length + 1, problem.message⟩ := by
  have hcut : cut (Utf8.encode (front ++ rest)) 0 (size front) = front := cut_encode [] front rest
  rw [errorAt, hcut]

theorem onBoundaries_front (front rest : List Char) : OnBoundaries (front ++ rest) 0 (size front) :=
  ⟨[], front, rest, rfl, rfl, rfl⟩

section Stretch

variable {before after inside behind : List Char} {stop : Nat}

/-- A stretch right behind an `@`. -/
theorem onBoundaries_at (hafter : after = inside ++ behind)
    (hstop : stop = size before + 1 + size inside) :
    OnBoundaries (before ++ '@' :: after) (size before + 1) stop := by
  refine ⟨before ++ ['@'], inside, behind, by simp [hafter], (size_append_at before).symm, ?_⟩
  rw [hstop, size_append, size_append_at]

theorem cut_encode_at (hafter : after = inside ++ behind)
    (hstop : stop = size before + 1 + size inside) :
    cut (Utf8.encode (before ++ '@' :: after)) (size before + 1) stop = inside := by
  have hwhole : before ++ '@' :: after = before ++ ['@'] ++ inside ++ behind := by simp [hafter]
  have hend : stop = size (before ++ ['@'] ++ inside) := by
    rw [hstop, size_append, size_append_at]
  rw [hwhole, hend, ← size_append_at]
  exact cut_encode _ _ _

end Stretch

theorem length_encode_at (before after : List Char) :
    (Utf8.encode (before ++ '@' :: after)).length = size before + 1 + size after := by
  have hlength : size (before ++ '@' :: after) = size before + (size after + 1) := by
    rw [size_append, size_cons (by decide)]
  have hsize : (Utf8.encode (before ++ '@' :: after)).length = size (before ++ '@' :: after) := rfl
  omega

theorem onBoundaries_behind_at (before after : List Char) :
    OnBoundaries (before ++ '@' :: after) (size before + 1)
      (Utf8.encode (before ++ '@' :: after)).length :=
  onBoundaries_at (List.append_nil after).symm (length_encode_at before after)

section Body

variable {opening closing : Char}

theorem findClosing_encode_opening (hopening : opening.toNat < 0x80)
    (hclosing : closing.toNat < 0x80) (hquote : opening ≠ '"') (i : Nat) (rest : List Char) :
    (findClosing opening closing {} (i + 1) (Utf8.encode (opening :: rest))).2 =
      (readBody opening closing {} rest).map fun read => i + 2 + size read.1 := by
  obtain ⟨b, hb, hbyte⟩ := utf8EncodeChar_ascii hopening
  have hfound : (findClosing opening closing ({} : Nesting).search (i + 2) (Utf8.encode rest)).2 =
      (readBody opening closing {} rest).map fun read => i + 2 + size read.1 :=
    findClosing_encode hopening hclosing (i + 2) rest
  rw [Utf8.encode_cons, hb, List.singleton_append, findClosing_opening hbyte hquote]
  exact hfound

/-- What a construct with a body comes to behind a text, with the position behind it. -/
def bodyResult (number : Nat) (before : List Char) (opening closing : Char) (unclosed : Problem)
    (finish : List Char → Except Problem (List Part)) :
    Option (List Char × List Char) → Except MarkupError (List Part × Nat)
  | none => .error ⟨number, before.length + 1, unclosed.message⟩
  | some (body, _) =>
    match finish (trim body) with
    | .error problem => .error ⟨number, before.length + 1, problem.message⟩
    | .ok parts => .ok (parts, size (before ++ '@' :: opening :: body ++ [closing]))

theorem bodyAt_agrees (hopening : opening.toNat < 0x80) (hclosing : closing.toNat < 0x80)
    (hquote : opening ≠ '"') (number : Nat) (before rest : List Char) (unclosed : Problem)
    (finish : List Char → Except Problem (List Part)) :
    (bodyAt number (Utf8.encode (before ++ '@' :: opening :: rest)) (size before) opening closing
      unclosed finish).Agrees (before ++ '@' :: opening :: rest)
      (bodyResult number before opening closing unclosed finish
        (readBody opening closing {} rest)) := by
  have hfound := findClosing_encode_opening hopening hclosing hquote (size before) rest
  rw [← drop_encode_at before] at hfound
  have hbehind := onBoundaries_behind_at before (opening :: rest)
  have hfront := onBoundaries_front before ('@' :: opening :: rest)
  generalize hline : before ++ '@' :: opening :: rest = line at hfound hbehind hfront ⊢
  generalize hsearch : findClosing opening closing {} (size before + 1)
    ((Utf8.encode line).drop (size before + 1)) = search at hfound
  obtain ⟨depths, found⟩ := search
  have herror (problem : Problem) : errorAt number (Utf8.encode line) (size before) problem =
      ⟨number, before.length + 1, problem.message⟩ := by
    rw [← hline]
    exact errorAt_encode number before _ problem
  cases hread : readBody opening closing {} rest with
  | none =>
    rw [hread] at hfound
    obtain rfl : found = none := hfound
    simp only [bodyAt, hsearch, herror, bodyResult]
    exact ⟨rfl, by simp [hbehind, hfront]⟩
  | some read =>
    obtain ⟨body, behind⟩ := read
    rw [hread] at hfound
    obtain rfl : found = some (size before + 2 + size body) := hfound
    have hwhole : line = before ++ ['@', opening] ++ body ++ closing :: behind := by
      rw [← hline, readBody_eq_some hread]
      simp
    have hstart : size (before ++ ['@', opening]) = size before + 2 := by
      rw [size_append, size_cons (by decide), size_cons hopening]
      rfl
    have hstop : size (before ++ ['@', opening] ++ body) = size before + 2 + size body := by
      rw [size_append, hstart]
    have hend : size (before ++ '@' :: opening :: body ++ [closing]) =
        size before + 2 + size body + 1 := by
      have hwritten : before ++ '@' :: opening :: body ++ [closing] =
          before ++ ['@', opening] ++ body ++ [closing] := by simp
      rw [hwritten, size_append, hstop, size_cons hclosing]
      rfl
    have hcut : cut (Utf8.encode line) (size before + 2) (size before + 2 + size body) = body := by
      rw [hwhole, ← hstop, ← hstart]
      exact cut_encode _ _ _
    have hinside : OnBoundaries line (size before + 2) (size before + 2 + size body) :=
      ⟨_, body, _, hwhole, hstart.symm, hstop.symm⟩
    simp only [bodyAt, hsearch, hcut, herror, bodyResult, hend]
    cases finish (trim body) with
    | error problem => exact ⟨rfl, by simp [hbehind, hinside, hfront]⟩
    | ok parts => exact ⟨rfl, by simp [hbehind, hinside]⟩

end Body

/-- What the construct of an `@` comes to behind a text, with the position behind it. -/
def located (number : Nat) (before : List Char) :
    Except Problem (Piece × List Char) → Except MarkupError (List Part × Nat)
  | .error problem => .error ⟨number, before.length + 1 + problem.offset, problem.message⟩
  | .ok (piece, _) => .ok (piece.part?.toList, size (before ++ piece.written))

theorem located_expression (number : Nat) (before rest : List Char) :
    located number before (readPiece '@' ('(' :: rest)) =
      bodyResult number before '(' ')' .unclosedExpression finishExpression
        (readBody '(' ')' {} rest) := by
  cases hread : readBody '(' ')' {} rest with
  | none => simp [readPiece, readConstruct, hread, located, bodyResult, Problem.offset]
  | some read =>
    by_cases hbody : trim read.1 = []
    · simp [readPiece, readConstruct, hread, located, bodyResult, finishExpression, hbody,
        Problem.offset]
    · simp [readPiece, readConstruct, hread, located, bodyResult, finishExpression, hbody,
        Piece.part?, Piece.written]

theorem located_code (number : Nat) (before rest : List Char) :
    located number before (readPiece '@' ('{' :: rest)) =
      bodyResult number before '{' '}' .unclosedCode finishCode (readBody '{' '}' {} rest) := by
  cases hread : readBody '{' '}' {} rest with
  | none => simp [readPiece, readConstruct, hread, located, bodyResult, Problem.offset]
  | some read =>
    by_cases hbody : trim read.1 = []
    · simp [readPiece, readConstruct, hread, located, bodyResult, finishCode, hbody, Piece.part?,
        Piece.written]
    · simp [readPiece, readConstruct, hread, located, bodyResult, finishCode, hbody, Piece.part?,
        Piece.written]

section Lead

variable {b : UInt8} {c : Char}

theorem constructOf_atSign (hlead : Leads b '@') (number : Nat) (before rest : List Char) :
    (constructOf number (Utf8.encode (before ++ '@' :: '@' :: rest)) (size before) b).Agrees
      (before ++ '@' :: '@' :: rest) (located number before (readPiece '@' ('@' :: rest))) := by
  have hb : byteChar b = '@' := (hlead.same '@' (by decide)).mpr rfl
  have hstop : size before + 2 = size before + 1 + size ['@'] := rfl
  have hwhole : '@' :: rest = ['@'] ++ rest := rfl
  have hcut := cut_encode_at hwhole hstop
  have hnext : size (before ++ ['@', '@']) = size before + 2 := by
    rw [size_append]
    rfl
  rw [constructOf, if_pos hb, hcut]
  refine ⟨?_, List.forall_mem_singleton.mpr (onBoundaries_at hwhole hstop)⟩
  simp [readPiece, readConstruct, located, Piece.part?, Piece.written, hnext]

/-- Behind a character that opens nothing the scan reads a path, or blames the character. -/
theorem constructOf_bare (hlead : Leads b c) (hat : c ≠ '@') (hparen : c ≠ '(') (hbrace : c ≠ '{')
    (number : Nat) (before rest : List Char) :
    (constructOf number (Utf8.encode (before ++ '@' :: c :: rest)) (size before) b).Agrees
      (before ++ '@' :: c :: rest) (located number before (readPiece '@' (c :: rest))) := by
  rw [constructOf, if_neg (mt (hlead.same '@' (by decide)).mp hat),
    if_neg (mt (hlead.same '(' (by decide)).mp hparen),
    if_neg (mt (hlead.same '{' (by decide)).mp hbrace), hlead.name]
  by_cases hname : isNameStart c = true
  · have hwhole := (readNames_append (c :: rest)).symm
    have hcut := cut_encode_at hwhole (rfl : size before + 1 + _ = _)
    have hnext : size (before ++ '@' :: (readNames (c :: rest)).1) =
        size before + 1 + size (readNames (c :: rest)).1 := length_encode_at _ _
    rw [if_pos hname, drop_encode_at, pathEnd_encode]
    dsimp only
    rw [hcut]
    refine ⟨?_, List.forall_mem_singleton.mpr (onBoundaries_at hwhole rfl)⟩
    simp [readPiece, readConstruct, hat, hparen, hbrace, hname, located, Piece.part?,
      Piece.written, hnext]
  · have hwhole : c :: rest = c :: rest ++ [] := (List.append_nil _).symm
    have hcut := cut_encode_at hwhole (length_encode_at before (c :: rest))
    have hfront : before ++ '@' :: c :: rest = before ++ ['@'] ++ c :: rest := by simp
    have herror := errorAt_encode number (before ++ ['@']) (c :: rest) (.unexpected c)
    have hcolumn := onBoundaries_front (before ++ ['@']) (c :: rest)
    rw [← hfront, size_append_at] at herror hcolumn
    rw [if_neg hname]
    dsimp only
    rw [hcut, List.headD_cons, herror]
    refine ⟨?_, ?_⟩
    · simp [readPiece, readConstruct, hat, hparen, hbrace, hname, located, Problem.offset]
    · simp only [List.forall_mem_cons]
      exact ⟨onBoundaries_behind_at before _, hcolumn, by simp⟩

theorem constructOf_agrees (hlead : Leads b c) (number : Nat) (before rest : List Char) :
    (constructOf number (Utf8.encode (before ++ '@' :: c :: rest)) (size before) b).Agrees
      (before ++ '@' :: c :: rest) (located number before (readPiece '@' (c :: rest))) := by
  by_cases hat : c = '@'
  · subst hat
    exact constructOf_atSign hlead number before rest
  by_cases hparen : c = '('
  · subst hparen
    rw [constructOf, if_neg (mt (hlead.same '@' (by decide)).mp hat),
      if_pos ((hlead.same '(' (by decide)).mpr rfl), located_expression]
    exact bodyAt_agrees (by decide) (by decide) (by decide) _ _ _ _ _
  by_cases hbrace : c = '{'
  · subst hbrace
    rw [constructOf, if_neg (mt (hlead.same '@' (by decide)).mp hat),
      if_neg (mt (hlead.same '(' (by decide)).mp hparen),
      if_pos ((hlead.same '{' (by decide)).mpr rfl), located_code]
    exact bodyAt_agrees (by decide) (by decide) (by decide) _ _ _ _ _
  exact constructOf_bare hlead hat hparen hbrace number before rest

end Lead

/-- The scan reads the construct that the characters behind an `@` make. -/
theorem constructAt_agrees (number : Nat) (before after : List Char) :
    (constructAt number (Utf8.encode (before ++ '@' :: after)) (size before)).Agrees
      (before ++ '@' :: after) (located number before (readPiece '@' after)) := by
  have hsecond : (Utf8.encode (before ++ '@' :: after))[size before + 1]? =
      (Utf8.encode after).head? := by
    rw [← List.head?_drop, drop_encode_at]
  cases after with
  | nil =>
    have hnone : (Utf8.encode (before ++ ['@']))[size before + 1]? = none := hsecond
    rw [constructAt, hnone]
    refine ⟨congrArg Except.error (errorAt_encode number before ['@'] .dangling), ?_⟩
    exact List.forall_mem_singleton.mpr (onBoundaries_front before ['@'])
  | cons c rest =>
    obtain ⟨b, more, hb, hlead⟩ := exists_leads c
    rw [Utf8.encode_cons, hb, List.cons_append, List.head?_cons] at hsecond
    rw [constructAt, hsecond]
    exact constructOf_agrees hlead number before rest

end Construct

section Scan

/-- What the rest of a line reads as behind a text. -/
def readFrom (number : Nat) (before rest : List Char) : Except MarkupError (List Part) :=
  match readPieces rest with
  | (pieces, none) => .ok (pieces.filterMap Piece.part?)
  | (pieces, some problem) =>
    .error ⟨number, before.length + (pieces.flatMap Piece.written).length + 1 + problem.offset,
      problem.message⟩

theorem readFrom_of_readPiece {number : Nat} {before cs rest : List Char} {c : Char}
    {piece : Piece} (h : readPiece c cs = .ok (piece, rest)) :
    readFrom number before (c :: cs) =
      (readFrom number (before ++ piece.written) rest).map (piece.part?.toList ++ ·) := by
  rw [readFrom, readFrom, readPieces_of_readPiece h]
  generalize readPieces rest = read
  obtain ⟨pieces, _ | problem⟩ := read
  · cases hpart : piece.part? with
    | none => simp [hpart, Except.map]
    | some part => simp [hpart, Except.map]
  · simp [Except.map, Nat.add_assoc]

theorem readFrom_of_problem {before after : List Char} {problem : Problem} (number : Nat)
    (h : readPiece '@' after = .error problem) : readFrom number before ('@' :: after) =
      .error ⟨number, before.length + 1 + problem.offset, problem.message⟩ := by
  have hread : readPieces ('@' :: after) = ([], some problem) :=
    readPieces_eq_of_faults .nil (readPiece_eq_error_iff.mp h)
  rw [readFrom, hread]
  simp

/-- Text in front of a construct, or of the end of the line, as a part of its own. -/
def textPart (text : List Char) : List Part :=
  if text = [] then [] else [.text (String.ofList text)]

theorem readFrom_text (number : Nat) (before : List Char) {text behind : List Char}
    (htext : '@' ∉ text) (hbehind : ∀ c ∈ behind.head?, c = '@') :
    readFrom number before (text ++ behind) =
      (readFrom number (before ++ text) behind).map (textPart text ++ ·) := by
  cases text with
  | nil =>
    rw [List.nil_append, List.append_nil]
    cases readFrom number before behind with
    | error e => rfl
    | ok parts => rfl
  | cons c cs =>
    have hread : readPiece c (cs ++ behind) = .ok (.run (c :: cs), behind) :=
      readPiece_eq_ok_iff.mpr ⟨rfl, by simp, htext, hbehind⟩
    exact readFrom_of_readPiece hread

theorem flush_encode (before text behind : List Char) :
    (flush (Utf8.encode (before ++ text ++ behind)) (size before) (size (before ++ text))).2 =
        textPart text ∧
      ∀ slice ∈ (flush (Utf8.encode (before ++ text ++ behind)) (size before)
        (size (before ++ text))).1, OnBoundaries (before ++ text ++ behind) slice.1 slice.2 := by
  have hsize := size_append before text
  by_cases htext : text = []
  · have hnone : ¬ size before < size (before ++ text) := by
      rw [htext, List.append_nil]
      exact Nat.lt_irrefl _
    rw [flush, if_neg hnone, textPart, if_pos htext]
    exact ⟨rfl, by simp⟩
  · have hsome : size before < size (before ++ text) := by
      have hpos := size_pos htext
      omega
    rw [flush, if_pos hsome, textPart, if_neg htext, cut_encode]
    exact ⟨rfl, List.forall_mem_singleton.mpr ⟨before, text, behind, rfl, rfl, rfl⟩⟩

theorem byteChar_ne_at {text : List Char} (htext : '@' ∉ text) :
    ∀ b ∈ Utf8.encode text, byteChar b ≠ '@' := by
  intro b hb
  obtain ⟨c, hc, hbc⟩ := List.mem_flatMap.mp hb
  have hne : c ≠ '@' := by
    rintro rfl
    exact htext hc
  by_cases hascii : c.toNat < 0x80
  · obtain ⟨d, hd, hdc⟩ := utf8EncodeChar_ascii hascii
    obtain rfl : b = d := by simpa [hd] using hbc
    rwa [hdc]
  · obtain ⟨d, more, hd, hwide⟩ := utf8EncodeChar_wide (Nat.le_of_not_lt hascii)
    exact byteChar_ne_of_wide (hwide b (hd ▸ hbc)) (by decide)

theorem scan_skip (number start : Nat) {inside : List UInt8}
    (hinside : ∀ b ∈ inside, byteChar b ≠ '@') (front behind : List UInt8) :
    (scan number (front ++ inside ++ behind) start front.length).toTrace =
      (scan number (front ++ inside ++ behind) start (front ++ inside).length).toTrace := by
  induction inside generalizing front with
  | nil => rw [List.append_nil]
  | cons b inside ih =>
    obtain ⟨hb, hrest⟩ := List.forall_mem_cons.mp hinside
    have hget : (front ++ b :: inside ++ behind)[front.length]? = some b := by simp
    have hnext := ih hrest (front ++ [b])
    rw [List.append_assoc front, List.singleton_append, List.length_append,
      List.length_singleton] at hnext
    rw [scan_other hget hb]
    exact hnext

theorem getElem?_encode (before after : List Char) : ∃ b,
    (Utf8.encode (before ++ '@' :: after))[size before]? = some b ∧ byteChar b = '@' := by
  obtain ⟨b, hb, hbyte⟩ := utf8EncodeChar_ascii (show '@'.toNat < 0x80 by decide)
  refine ⟨b, ?_, hbyte⟩
  rw [← List.head?_drop, drop_encode, Utf8.encode_cons, hb]
  rfl

theorem exists_text (rest : List Char) : ∃ text behind, rest = text ++ behind ∧ '@' ∉ text ∧
    ∀ c ∈ behind.head?, c = '@' := by
  refine ⟨rest.takeWhile (· ≠ '@'), rest.dropWhile (· ≠ '@'),
    List.takeWhile_append_dropWhile.symm, ?_, fun c hc => ?_⟩
  · intro hmem
    simpa using List.mem_takeWhile_imp hmem
  · simpa using head_dropWhile c hc

theorem scan_text (number : Nat) (before behind : List Char) {text : List Char}
    (htext : '@' ∉ text) :
    (scan number (Utf8.encode (before ++ text ++ behind)) (size before) (size before)).toTrace =
      (scan number (Utf8.encode (before ++ text ++ behind)) (size before)
        (size (before ++ text))).toTrace := by
  have hskip := scan_skip number (size before) (byteChar_ne_at htext) (Utf8.encode before)
    (Utf8.encode behind)
  rwa [← Utf8.encode_append, ← Utf8.encode_append] at hskip

/-- Behind any piece, the scan reads what the rest of the line says. -/
theorem scan_agrees (number : Nat) (before rest : List Char) :
    (scan number (Utf8.encode (before ++ rest)) (size before) (size before)).toTrace.Agrees
      (before ++ rest) (readFrom number before rest) := by
  -- on the length of the rest: the scan takes the text up to an `@` and its construct at once
  induction hlength : rest.length using Nat.strong_induction_on generalizing before rest with
  | h length ih =>
  obtain ⟨text, behind, rfl, htext, hbehind⟩ := exists_text rest
  obtain ⟨hflush, hslices⟩ := flush_encode before text behind
  rw [← List.append_assoc, readFrom_text number before htext hbehind, scan_text number _ _ htext]
  cases behind with
  | nil =>
    have hend : (Utf8.encode (before ++ text ++ [])).length = size (before ++ text) := by
      rw [List.append_nil]
      rfl
    rw [scan_end (Nat.le_of_eq hend), hend]
    refine ⟨?_, hslices⟩
    dsimp only
    rw [hflush]
    simp [readFrom, readPieces, Except.map]
  | cons c after =>
    obtain rfl : c = '@' := hbehind c rfl
    obtain ⟨b, hget, hb⟩ := getElem?_encode (before ++ text) after
    have hconstruct := constructAt_agrees number (before ++ text) after
    generalize hrun : constructAt number (Utf8.encode (before ++ text ++ '@' :: after))
      (size (before ++ text)) = run at hconstruct
    obtain ⟨slices, depths, result⟩ := run
    obtain ⟨rfl, hinside⟩ := hconstruct
    cases hread : readPiece '@' after with
    | error problem =>
      rw [hread] at hrun
      rw [scan_error hget hb hrun, readFrom_of_problem number hread]
      exact ⟨rfl, List.forall_mem_append.mpr ⟨hslices, hinside⟩⟩
    | ok read =>
      obtain ⟨piece, rest⟩ := read
      rw [hread] at hrun
      have hwhole := readPiece_eq_ok hread
      have hrest : rest.length < length := by
        have hwritten := List.length_pos_iff.mpr (Piece.written_ne_nil hread)
        have hbehind := congrArg List.length hwhole
        rw [List.length_append] at hlength hbehind
        omega
      have hlater := ih rest.length hrest (before ++ text ++ piece.written) rest rfl
      rw [List.append_assoc _ piece.written, ← hwhole] at hlater
      rw [scan_ok hget hb hrun, readFrom_of_readPiece hread]
      refine ⟨?_, List.forall_mem_append.mpr
        ⟨List.forall_mem_append.mpr ⟨hslices, hinside⟩, hlater.slices⟩⟩
      dsimp only
      rw [hlater.result, hflush]
      cases readFrom number (before ++ text ++ piece.written) rest with
      | error e => rfl
      | ok parts => simp [Except.map]

end Scan

theorem readFrom_nil (number : Nat) (line : List Char) :
    readFrom number [] line = readParts number line := by
  rw [readFrom, readParts]
  cases readPieces line with
  | mk pieces problem => cases problem <;> simp

/-- Which `@` of a line is blamed, and how the bytes of the line are scanned. -/
structure BlamesLastAt (number : Nat) (line : List Char) : Prop where
  /-- A line fails at the last `@` that has an accepted text in front. The column counts characters;
  it is that of the `@`, or of an unexpected character right behind it. -/
  error : ∀ e, readParts number line = .error e ↔ ∃ before after problem,
    LastAt number line before after ∧ Faults after problem ∧
    e = ⟨number, before.length + 1 + problem.offset, problem.message⟩
  /-- The scan of the bytes reads the line, with the columns that it counts itself. -/
  scanned : (scan number (Utf8.encode line) 0 0).result = readParts number line
  slices : ∀ slice ∈ (scan number (Utf8.encode line) 0 0).slices,
    OnBoundaries line slice.1 slice.2
  depths : ∀ depth ∈ (scan number (Utf8.encode line) 0 0).depths, 0 ≤ depth
  forward : (scan number (Utf8.encode line) 0 0).positions.Pairwise (· < ·)

/-- An error of a line blames the last `@` with an accepted text in front. On every line the scan of
the bytes cuts only between characters, counts no depth below zero and goes forward. -/
theorem readParts_blames_last_at (number : Nat) (line : List Char) : BlamesLastAt number line := by
  have hagrees : (scan number (Utf8.encode line) 0 0).toTrace.Agrees line
      (readFrom number [] line) := scan_agrees number [] line
  constructor
  case error =>
    intro e
    exact readParts_eq_error_iff
  case scanned => rw [hagrees.result, readFrom_nil]
  case slices => exact hagrees.slices
  case depths => exact scan_depths number _ 0 0
  case forward => exact (scan_positions number _ 0 0).2

example : readParts 7 "äö @@ @(x".toList = .error ⟨7, 7, "unclosed `@(` expression"⟩ := by
  decide +kernel

end TemplateViews.Markup
