import TemplateViews.Json.Text

/-! Texts of strings. A character may stand for itself or be escaped, by a letter or by its units,
and a string is read as the characters that are written in it. -/

namespace TemplateViews.Json

/-- Four digits of a unit. -/
inductive SpelledUnit : List Char → Nat → Prop
  | intro {a b c d : Char} {i j k l : Nat} (ha : hexDigit? a = some i) (hb : hexDigit? b = some j)
      (hc : hexDigit? c = some k) (hd : hexDigit? d = some l) :
      SpelledUnit [a, b, c, d] (((i * 16 + j) * 16 + k) * 16 + l)

/-- The texts of a character. -/
inductive SpelledChar : List Char → Char → Prop
  | plain {c : Char} (hcontrol : 0x20 ≤ c.toNat) (hquote : c ≠ '"') (hslash : c ≠ '\\') :
      SpelledChar [c] c
  | escape {letter c : Char} (h : escape? letter = some c) : SpelledChar ['\\', letter] c
  | unit {digits : List Char} {c : Char} (h : SpelledUnit digits c.toNat) :
      SpelledChar ('\\' :: 'u' :: digits) c
  | pair {high low : List Char} {i j : Nat} {c : Char} (hi : i < 0x400) (hj : j < 0x400)
      (hhigh : SpelledUnit high (0xd800 + i)) (hlow : SpelledUnit low (0xdc00 + j))
      (hc : c.toNat = 0x10000 + i * 0x400 + j) :
      SpelledChar ('\\' :: 'u' :: high ++ '\\' :: 'u' :: low) c

inductive SpelledText : List Char → List Char → Prop
  | nil : SpelledText [] []
  | cons {cs ds text : List Char} {c : Char} (hchar : SpelledChar cs c) (hrest : SpelledText ds text) :
      SpelledText (cs ++ ds) (c :: text)

inductive SpelledElement : List Char → Element → Prop
  | plain {c : Char} (hcontrol : 0x20 ≤ c.toNat) (hquote : c ≠ '"') (hslash : c ≠ '\\') :
      SpelledElement [c] (.char c)
  | escape {letter c : Char} (h : escape? letter = some c) :
      SpelledElement ['\\', letter] (.char c)
  | unit {digits : List Char} {n : Nat} (h : SpelledUnit digits n) :
      SpelledElement ('\\' :: 'u' :: digits) (.unit n)

inductive SpelledElements : List Char → List Element → Prop
  | nil : SpelledElements [] []
  | cons {cs ds : List Char} {e : Element} {es : List Element} (helement : SpelledElement cs e)
      (hrest : SpelledElements ds es) : SpelledElements (cs ++ ds) (e :: es)

/-- The texts of a string. A string in which half of a pair is escaped has no characters. -/
inductive SpelledString : List Char → Option String → Prop
  | text {cs text : List Char} (h : SpelledText cs text) :
      SpelledString ('"' :: (cs ++ ['"'])) (some (String.ofList text))
  | half {cs : List Char} {es : List Element} (h : SpelledElements cs es)
      (hhalf : ∀ text, pairUnits es ≠ some (text, false)) : SpelledString ('"' :: (cs ++ ['"'])) none

variable {cs : List Char}

theorem readUnit_spelled {n : Nat} (h : SpelledUnit cs n) (rest : List Char) :
    readUnit (cs ++ rest) = .ok (n, rest) := by
  cases h with
  | @intro a b c d i j k l ha hb hc hd =>
    have hlong : isShort (a :: b :: c :: d :: rest) = false := by
      have := a.utf8Size_pos
      have := b.utf8Size_pos
      have := c.utf8Size_pos
      have := d.utf8Size_pos
      refine decide_eq_false ?_
      simp only [List.take_succ_cons, List.take_zero, List.foldl_cons, List.foldl_nil]
      omega
    change readUnit (a :: b :: c :: d :: rest) = _
    rw [readUnit, hlong]
    simp only [Bool.false_eq_true, if_false, ha, hb, hc, hd]

theorem readElement_spelled {e : Element} (h : SpelledElement cs e) (rest : List Char) :
    readElement (cs ++ rest) = .ok (some (e, rest)) := by
  cases h with
  | plain hcontrol hquote hslash =>
    simp [readElement, hquote, hslash, hcontrol]
  | @escape letter c h =>
    have hletter : letter ≠ 'u' := by
      rintro rfl
      cases h
    simp [readElement, hletter, h]
  | @unit digits n h => simp [readElement, readUnit_spelled h, Except.map]

theorem readElements_spelled {es : List Element} (h : SpelledElements cs es) (rest : List Char) :
    readElements (cs ++ '"' :: rest) = (es, .ok rest) := by
  induction h with
  | nil =>
    have hclosed : readElement ('"' :: rest) = .ok none := rfl
    rw [List.nil_append, readElements]
    split <;> simp_all
  | @cons cs ds e es helement _ ih =>
    have hfirst := readElement_spelled helement (ds ++ '"' :: rest)
    rw [List.append_assoc, readElements]
    split <;> simp_all

theorem not_isLowSurrogate (c : Char) : isLowSurrogate c.toNat = false := by
  have hvalid : c.toNat < 0xd800 ∨ 0xdfff < c.toNat ∧ c.toNat < 0x110000 := c.valid
  simp only [isLowSurrogate, Bool.and_eq_false_iff, decide_eq_false_iff_not]
  omega

theorem not_isHighSurrogate (c : Char) : isHighSurrogate c.toNat = false := by
  have hvalid : c.toNat < 0xd800 ∨ 0xdfff < c.toNat ∧ c.toNat < 0x110000 := c.valid
  simp only [isHighSurrogate, Bool.and_eq_false_iff, decide_eq_false_iff_not]
  omega

/-- A character is written as one element, or as the two units of a pair. -/
theorem exists_elements_of_char {c : Char} (h : SpelledChar cs c) :
    ∃ es, (∀ ds more, SpelledElements ds more → SpelledElements (cs ++ ds) (es ++ more)) ∧
      ∀ more, pairUnits (es ++ more) = (pairUnits more).map fun (text, half) => (c :: text, half) := by
  cases h with
  | plain hcontrol hquote hslash =>
    exact ⟨[.char c], fun _ _ => .cons (.plain hcontrol hquote hslash), fun _ => rfl⟩
  | escape h => exact ⟨[.char c], fun _ _ => .cons (.escape h), fun _ => rfl⟩
  | unit h =>
    refine ⟨[.unit c.toNat], fun _ _ => .cons (.unit h), fun more => ?_⟩
    rw [List.singleton_append, pairUnits.eq_def]
    simp only [not_isLowSurrogate, not_isHighSurrogate, Bool.false_eq_true, if_false, Char.ofNat_toNat]
  | @pair high low i j _ hi hj hhigh hlow hc =>
    refine ⟨[.unit (0xd800 + i), .unit (0xdc00 + j)], fun ds more hmore => ?_, fun more => ?_⟩
    · have hunits := (SpelledElements.cons (.unit hlow) hmore).cons (.unit hhigh)
      simpa using hunits
    · have hfirst : isLowSurrogate (0xd800 + i) = false := by simp [isLowSurrogate]; omega
      have hhalf : isHighSurrogate (0xd800 + i) = true := by simp [isHighSurrogate]; omega
      have hsecond : isLowSurrogate (0xdc00 + j) = true := by simp [isLowSurrogate]; omega
      have hpoint : Char.ofNat (0x10000 + (0xd800 + i - 0xd800) * 0x400 + (0xdc00 + j - 0xdc00)) = c := by
        rw [Nat.add_sub_cancel_left, Nat.add_sub_cancel_left, ← hc, Char.ofNat_toNat]
      rw [List.cons_append, List.singleton_append, pairUnits, hfirst, hhalf]
      simp only [Bool.false_eq_true, if_false, if_true, hsecond, hpoint]

theorem exists_elements_of_text {text : List Char} (h : SpelledText cs text) :
    ∃ es, SpelledElements cs es ∧ pairUnits es = some (text, false) := by
  induction h with
  | nil => exact ⟨[], .nil, rfl⟩
  | cons hchar _ ih =>
    obtain ⟨more, hmore, hpairs⟩ := ih
    obtain ⟨es, hes, hchar⟩ := exists_elements_of_char hchar
    exact ⟨es ++ more, hes _ _ hmore, by rw [hchar, hpairs]; rfl⟩

/-- A string is read behind its opening quote. -/
theorem readString_spelled {text : Option String} (h : SpelledString cs text) :
    ∃ inner, cs = '"' :: inner ∧ ∀ rest, readString (inner ++ rest) = .closed text rest := by
  cases h with
  | @text cs text h =>
    obtain ⟨es, hes, hpairs⟩ := exists_elements_of_text h
    refine ⟨_, rfl, fun rest => ?_⟩
    rw [List.append_assoc, List.singleton_append, readString, readElements_spelled hes]
    simp only [hpairs]
  | @half cs es hes hhalf =>
    refine ⟨_, rfl, fun rest => ?_⟩
    rw [List.append_assoc, List.singleton_append, readString, readElements_spelled hes]
    dsimp only
    split
    · next text hpairs => exact absurd hpairs (hhalf text)
    · rfl

theorem spelledText_plain {cs : List Char}
    (h : ∀ c ∈ cs, 0x20 ≤ c.toNat ∧ c ≠ '"' ∧ c ≠ '\\') : SpelledText cs cs := by
  induction cs with
  | nil => exact .nil
  | cons c cs ih =>
    obtain ⟨⟨hcontrol, hquote, hslash⟩, hrest⟩ := List.forall_mem_cons.mp h
    exact .cons (.plain hcontrol hquote hslash) (ih hrest)

/-- A text without anything to escape is spelled by itself between quotes. -/
theorem spelledString_plain {text : String}
    (h : ∀ c ∈ text.toList, 0x20 ≤ c.toNat ∧ c ≠ '"' ∧ c ≠ '\\') :
    SpelledString ('"' :: (text.toList ++ ['"'])) (some text) := by
  have hstring := SpelledString.text (spelledText_plain h)
  rwa [String.ofList_toList] at hstring

end TemplateViews.Json
