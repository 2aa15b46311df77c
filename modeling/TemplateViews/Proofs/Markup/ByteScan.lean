import TemplateViews.Markup.Line
import TemplateViews.Text.Utf8

/-! A line of markup read from its bytes, with the position of each byte. The scan keeps a trace: the
positions it stands at, the stretches it cuts out of the line and the depths that the search for a
closing delimiter comes to. On any bytes it goes forward, and no depth falls below zero. -/

namespace TemplateViews.Markup

/-- The character with the number of a byte. It is one of ASCII exactly if the byte is. -/
def byteChar (b : UInt8) : Char := Char.ofNat b.toNat

/-- The text between two positions. -/
def cut (bytes : List UInt8) (start stop : Nat) : List Char :=
  Utf8.decodeLossy ((bytes.take stop).drop start)

/-- Where a search for a closing delimiter stands. The depth counts every delimiter, the one that
opens the construct too; that it stays at zero or above is not built in. -/
structure Search where
  depth : Int := 0
  quoting : Quoting := .outside
  deriving DecidableEq, Repr

/-- The search behind a byte, and whether the byte closes the construct. -/
def Search.step (opening closing : Char) (s : Search) (b : UInt8) : Search × Bool :=
  match s.quoting with
  | .escaped => (⟨s.depth, .inside⟩, false)
  | .inside =>
    if byteChar b = '\\' then (⟨s.depth, .escaped⟩, false)
    else if byteChar b = '"' then (⟨s.depth, .outside⟩, false)
    else (s, false)
  | .outside =>
    if byteChar b = '"' then (⟨s.depth, .inside⟩, false)
    else if byteChar b = opening then (⟨s.depth + 1, .outside⟩, false)
    else if byteChar b = closing then (⟨s.depth - 1, .outside⟩, s.depth - 1 = 0)
    else (s, false)

/-- Searches for the closing delimiter from a position: the depth behind each byte, and the position
of the delimiter. -/
def findClosing (opening closing : Char) (s : Search) (i : Nat) :
    List UInt8 → List Int × Option Nat
  | [] => ([], none)
  | b :: rest =>
    let next := s.step opening closing b
    if next.2 then ([next.1.depth], some i)
    else
      let found := findClosing opening closing next.1 (i + 1) rest
      (next.1.depth :: found.1, found.2)

/-- Where the path of identifiers that starts at a position ends. -/
def pathEnd (i : Nat) : List UInt8 → Nat
  | [] => i
  | b :: rest =>
    if isNamePart (byteChar b) ||
        (byteChar b == '.' && rest.head?.any fun d => isNameStart (byteChar d)) then
      pathEnd (i + 1) rest
    else i

/-- What reading comes to, and the stretches and depths on the way. -/
structure Trace (α : Type) where
  slices : List (Nat × Nat)
  depths : List Int
  result : α

/-- The error at a position. Its column counts the characters in front. -/
def errorAt (number : Nat) (bytes : List UInt8) (i : Nat) (problem : Problem) : MarkupError :=
  ⟨number, (cut bytes 0 i).length + 1, problem.message⟩

/-- The construct of an `@` with a body between delimiters, and the position behind it. -/
def bodyAt (number : Nat) (bytes : List UInt8) (i : Nat) (opening closing : Char)
    (unclosed : Problem) (finish : List Char → Except Problem (List Part)) :
    Trace (Except MarkupError (List Part × Nat)) :=
  match findClosing opening closing {} (i + 1) (bytes.drop (i + 1)) with
  | (depths, none) =>
    ⟨[(i + 1, bytes.length), (0, i)], depths, .error (errorAt number bytes i unclosed)⟩
  | (depths, some close) =>
    match finish (trim (cut bytes (i + 2) close)) with
    | .error problem =>
      ⟨[(i + 1, bytes.length), (i + 2, close), (0, i)], depths,
        .error (errorAt number bytes i problem)⟩
    | .ok parts => ⟨[(i + 1, bytes.length), (i + 2, close)], depths, .ok (parts, close + 1)⟩

def finishExpression (body : List Char) : Except Problem (List Part) :=
  if body = [] then .error .emptyExpression else .ok [.value (String.ofList body)]

def finishCode (body : List Char) : Except Problem (List Part) :=
  .ok (if body = [] then [] else [.statements (String.ofList body)])

/-- The construct of the `@` at a position, told by the byte behind it, and the position behind the
construct. -/
def constructOf (number : Nat) (bytes : List UInt8) (i : Nat) (b : UInt8) :
    Trace (Except MarkupError (List Part × Nat)) :=
  if byteChar b = '@' then
    ⟨[(i + 1, i + 2)], [], .ok ([.text (String.ofList (cut bytes (i + 1) (i + 2)))], i + 2)⟩
  else if byteChar b = '(' then
    bodyAt number bytes i '(' ')' .unclosedExpression finishExpression
  else if byteChar b = '{' then bodyAt number bytes i '{' '}' .unclosedCode finishCode
  else if isNameStart (byteChar b) then
    let stop := pathEnd (i + 1) (bytes.drop (i + 1))
    ⟨[(i + 1, stop)], [], .ok ([.value (String.ofList (cut bytes (i + 1) stop))], stop)⟩
  else
    let found := (cut bytes (i + 1) bytes.length).headD '@'
    ⟨[(i + 1, bytes.length), (0, i + 1)], [],
      .error (errorAt number bytes (i + 1) (.unexpected found))⟩

def constructAt (number : Nat) (bytes : List UInt8) (i : Nat) :
    Trace (Except MarkupError (List Part × Nat)) :=
  match bytes[i + 1]? with
  | none => ⟨[(0, i)], [], .error (errorAt number bytes i .dangling)⟩
  | some b => constructOf number bytes i b

/-- The text from a position to another one, if it is not empty. -/
def flush (bytes : List UInt8) (start stop : Nat) : List (Nat × Nat) × List Part :=
  if start < stop then ([(start, stop)], [.text (String.ofList (cut bytes start stop))])
  else ([], [])

theorem le_of_findClosing {opening closing : Char} {s : Search} {i close : Nat}
    {tail : List UInt8} (h : (findClosing opening closing s i tail).2 = some close) :
    i ≤ close := by
  induction tail generalizing s i with
  | nil => cases h
  | cons b rest ih =>
    rw [findClosing] at h
    dsimp only at h
    split at h
    · exact Nat.le_of_eq (Option.some.inj h)
    · exact Nat.le_of_succ_le (ih h)

theorem le_pathEnd (i : Nat) (tail : List UInt8) : i ≤ pathEnd i tail := by
  induction tail generalizing i with
  | nil => exact Nat.le_refl i
  | cons b rest ih =>
    rw [pathEnd]
    split
    · exact Nat.le_of_succ_le (ih (i + 1))
    · exact Nat.le_refl i

theorem lt_of_bodyAt {number i next : Nat} {bytes : List UInt8} {opening closing : Char}
    {unclosed : Problem} {finish : List Char → Except Problem (List Part)} {parts : List Part}
    (h : (bodyAt number bytes i opening closing unclosed finish).result = .ok (parts, next)) :
    i < next := by
  cases hfound : findClosing opening closing {} (i + 1) (bytes.drop (i + 1)) with
  | mk depths found =>
    cases found with
    | none => simp [bodyAt, hfound] at h
    | some close =>
      have hle : i + 1 ≤ close := le_of_findClosing (congrArg Prod.snd hfound)
      simp only [bodyAt, hfound] at h
      split at h
      · cases h
      · cases h
        omega

theorem lt_of_constructAt {number i next : Nat} {bytes : List UInt8} {parts : List Part}
    (h : (constructAt number bytes i).result = .ok (parts, next)) : i < next := by
  rw [constructAt] at h
  split at h
  · cases h
  unfold constructOf at h
  split at h
  · cases h
    omega
  split at h
  · exact lt_of_bodyAt h
  split at h
  · exact lt_of_bodyAt h
  split at h
  · cases h
    exact le_pathEnd (i + 1) _
  · cases h

/-- The trace of a whole line, with the positions that the scan stands at. -/
structure Scan extends Trace (Except MarkupError (List Part)) where
  positions : List Nat

/-- Scans from a position; the text from `start` to it is still to be flushed. -/
def scan (number : Nat) (bytes : List UInt8) (start i : Nat) : Scan :=
  if h : i < bytes.length then
    if byteChar bytes[i] = '@' then
      let text := flush bytes start i
      match _h : constructAt number bytes i with
      | ⟨slices, depths, .error e⟩ => ⟨⟨text.1 ++ slices, depths, .error e⟩, [i]⟩
      | ⟨slices, depths, .ok (parts, next)⟩ =>
        let later := scan number bytes next next
        ⟨⟨text.1 ++ slices ++ later.slices, depths ++ later.depths,
          later.result.map (text.2 ++ parts ++ ·)⟩, i :: later.positions⟩
    else
      let later := scan number bytes start (i + 1)
      ⟨later.toTrace, i :: later.positions⟩
  else
    let text := flush bytes start bytes.length
    ⟨⟨text.1, [], .ok text.2⟩, [i]⟩
termination_by bytes.length - i
decreasing_by
  · have hlt : i < next := lt_of_constructAt (congrArg Trace.result _h)
    omega
  · omega

section Steps

variable {number start i : Nat} {bytes : List UInt8} {b : UInt8}

theorem scan_error {slices : List (Nat × Nat)} {depths : List Int} {e : MarkupError}
    (hb : bytes[i]? = some b) (hat : byteChar b = '@')
    (hread : constructAt number bytes i = ⟨slices, depths, .error e⟩) :
    scan number bytes start i = ⟨⟨(flush bytes start i).1 ++ slices, depths, .error e⟩, [i]⟩ := by
  obtain ⟨hlt, rfl⟩ := List.getElem?_eq_some_iff.mp hb
  rw [scan, dif_pos hlt, if_pos hat]
  dsimp only
  split
  · next h =>
    cases hread.symm.trans h
    rfl
  · next h => cases hread.symm.trans h

theorem scan_ok {slices : List (Nat × Nat)} {depths : List Int} {parts : List Part} {next : Nat}
    (hb : bytes[i]? = some b) (hat : byteChar b = '@')
    (hread : constructAt number bytes i = ⟨slices, depths, .ok (parts, next)⟩) :
    scan number bytes start i =
      ⟨⟨(flush bytes start i).1 ++ slices ++ (scan number bytes next next).slices,
        depths ++ (scan number bytes next next).depths,
        (scan number bytes next next).result.map ((flush bytes start i).2 ++ parts ++ ·)⟩,
        i :: (scan number bytes next next).positions⟩ := by
  obtain ⟨hlt, rfl⟩ := List.getElem?_eq_some_iff.mp hb
  rw [scan, dif_pos hlt, if_pos hat]
  dsimp only
  split
  · next h => cases hread.symm.trans h
  · next h =>
    cases hread.symm.trans h
    rfl

theorem scan_other (hb : bytes[i]? = some b) (hat : byteChar b ≠ '@') :
    scan number bytes start i = ⟨(scan number bytes start (i + 1)).toTrace,
      i :: (scan number bytes start (i + 1)).positions⟩ := by
  obtain ⟨hlt, rfl⟩ := List.getElem?_eq_some_iff.mp hb
  rw [scan, dif_pos hlt, if_neg hat]

theorem scan_end (h : bytes.length ≤ i) : scan number bytes start i =
    ⟨⟨(flush bytes start bytes.length).1, [], .ok (flush bytes start bytes.length).2⟩, [i]⟩ := by
  rw [scan, dif_neg (by omega)]

end Steps

section Depths

variable {opening closing : Char}

/-- In a construct a step stays in it, or closes it at depth zero. -/
theorem Search.step_depth {s : Search} (b : UInt8) (hs : 0 < s.depth) :
    0 < (s.step opening closing b).1.depth ∨
      (s.step opening closing b).2 = true ∧ (s.step opening closing b).1.depth = 0 := by
  obtain ⟨depth, quoting⟩ := s
  dsimp only at hs
  cases quoting with
  | escaped => exact .inl hs
  | inside =>
    simp only [step]
    repeat' split
    all_goals exact .inl hs
  | outside =>
    simp only [step]
    split
    · exact .inl hs
    split
    · dsimp only
      omega
    split
    · rw [decide_eq_true_eq]
      dsimp only
      omega
    · exact .inl hs

theorem findClosing_depths {s : Search} (hs : 0 < s.depth) (i : Nat) (tail : List UInt8) :
    ∀ depth ∈ (findClosing opening closing s i tail).1, 0 ≤ depth := by
  induction tail generalizing s i with
  | nil => simp [findClosing]
  | cons b rest ih =>
    have hstep : 0 < (s.step opening closing b).1.depth ∨
        (s.step opening closing b).2 = true ∧ (s.step opening closing b).1.depth = 0 :=
      Search.step_depth b hs
    rw [findClosing]
    dsimp only
    split
    · simp only [List.mem_singleton, forall_eq]
      omega
    · next hopen =>
      have hnext : 0 < (s.step opening closing b).1.depth :=
        hstep.resolve_right fun h => hopen h.1
      exact List.forall_mem_cons.mpr ⟨Int.le_of_lt hnext, ih hnext (i + 1)⟩

/-- The search starts on the opening delimiter. -/
theorem Search.step_opening {b : UInt8} (hb : byteChar b = opening) (hquote : opening ≠ '"') :
    ({} : Search).step opening closing b = (⟨1, .outside⟩, false) := by
  simp [step, hb, hquote]

theorem findClosing_opening {b : UInt8} (hb : byteChar b = opening) (hquote : opening ≠ '"')
    (i : Nat) (rest : List UInt8) :
    findClosing opening closing {} i (b :: rest) =
      (1 :: (findClosing opening closing ⟨1, .outside⟩ (i + 1) rest).1,
        (findClosing opening closing ⟨1, .outside⟩ (i + 1) rest).2) := by
  simp [findClosing, Search.step_opening hb hquote]

theorem bodyAt_depths {number i : Nat} {bytes : List UInt8} {b : UInt8}
    (hat : bytes[i + 1]? = some b) (hb : byteChar b = opening) (hquote : opening ≠ '"')
    (unclosed : Problem) (finish : List Char → Except Problem (List Part)) :
    ∀ depth ∈ (bodyAt number bytes i opening closing unclosed finish).depths, 0 ≤ depth := by
  obtain ⟨hlt, hget⟩ := List.getElem?_eq_some_iff.mp hat
  have hdrop : bytes.drop (i + 1) = b :: bytes.drop (i + 2) := by
    rw [List.drop_eq_getElem_cons hlt, hget]
  have hfound : ∀ depth ∈ (findClosing opening closing {} (i + 1) (bytes.drop (i + 1))).1,
      0 ≤ depth := by
    rw [hdrop, findClosing_opening hb hquote]
    exact List.forall_mem_cons.mpr ⟨by decide, findClosing_depths (by decide) _ _⟩
  unfold bodyAt
  split
  · next hsearch => simpa only [hsearch] using hfound
  · next hsearch =>
    rw [hsearch] at hfound
    split
    · exact hfound
    · exact hfound

theorem constructAt_depths (number : Nat) (bytes : List UInt8) (i : Nat) :
    ∀ depth ∈ (constructAt number bytes i).depths, 0 ≤ depth := by
  rw [constructAt]
  split
  · simp
  next hat =>
  unfold constructOf
  split
  · simp
  split
  · next hb => exact bodyAt_depths hat hb (by decide) _ _
  split
  · next hb => exact bodyAt_depths hat hb (by decide) _ _
  split
  · simp
  · simp

theorem scan_depths (number : Nat) (bytes : List UInt8) (start i : Nat) :
    ∀ depth ∈ (scan number bytes start i).depths, 0 ≤ depth := by
  have hconstruct := constructAt_depths number bytes
  fun_induction scan number bytes start i with
  | case1 start i hlt hat text slices depths e hread =>
    have hdepths := hconstruct i
    rwa [hread] at hdepths
  | case2 start i hlt hat text slices depths parts next hread later ih =>
    have hdepths := hconstruct i
    rw [hread] at hdepths
    intro depth hdepth
    rcases List.mem_append.mp hdepth with hdepth | hdepth
    · exact hdepths depth hdepth
    · exact ih depth hdepth
  | case3 start i hlt hat later ih => exact ih
  | case4 start i hlt text => simp

end Depths

/-- The scan goes forward with every step. -/
theorem scan_positions (number : Nat) (bytes : List UInt8) (start i : Nat) :
    (∀ position ∈ (scan number bytes start i).positions, i ≤ position) ∧
      (scan number bytes start i).positions.Pairwise (· < ·) := by
  have hstep {next : Nat} {positions : List Nat} (i : Nat) (hlt : i < next)
      (h : (∀ position ∈ positions, next ≤ position) ∧ positions.Pairwise (· < ·)) :
      (∀ position ∈ i :: positions, i ≤ position) ∧ (i :: positions).Pairwise (· < ·) := by
    refine ⟨List.forall_mem_cons.mpr ⟨Nat.le_refl i, fun position hp => ?_⟩,
      List.pairwise_cons.mpr ⟨fun position hp => ?_, h.2⟩⟩
    · exact Nat.le_of_lt (Nat.lt_of_lt_of_le hlt (h.1 position hp))
    · exact Nat.lt_of_lt_of_le hlt (h.1 position hp)
  fun_induction scan number bytes start i with
  | case1 start i hlt hat text slices depths e hread => simp
  | case2 start i hlt hat text slices depths parts next hread later ih =>
    exact hstep i (lt_of_constructAt (congrArg Trace.result hread)) ih
  | case3 start i hlt hat later ih => exact hstep i (Nat.lt_succ_self i) ih
  | case4 start i hlt text => simp

end TemplateViews.Markup
