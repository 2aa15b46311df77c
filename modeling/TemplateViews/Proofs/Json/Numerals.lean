import TemplateViews.Json.Numeral
import TemplateViews.Proofs.Text.Trim

/-! Texts of numbers. What is read of a numeral is what is written in it, and the decimal digits
of a number that fits into a word are read as this number. -/

namespace TemplateViews.Json

inductive SpelledWhole : List Char → Prop
  | zero : SpelledWhole ['0']
  | digits {c : Char} {cs : List Char} (hfirst : c ≠ '0') (h : ∀ d ∈ c :: cs, d.isDigit = true) :
      SpelledWhole (c :: cs)

inductive SpelledFraction : List Char → Option (List Nat) → Prop
  | none : SpelledFraction [] none
  | some {digits : List Char} (hne : digits ≠ []) (h : ∀ d ∈ digits, d.isDigit = true) :
      SpelledFraction ('.' :: digits) (some (digits.map digitValue))

inductive SpelledExponent : List Char → Option Int → Prop
  | none : SpelledExponent [] none
  | positive {e : Char} {sign digits : List Char} (he : e = 'e' ∨ e = 'E')
      (hsign : sign = [] ∨ sign = ['+']) (hne : digits ≠ []) (h : ∀ d ∈ digits, d.isDigit = true) :
      SpelledExponent (e :: (sign ++ digits)) (some (digitsValue (digits.map digitValue)))
  | negative {e : Char} {digits : List Char} (he : e = 'e' ∨ e = 'E') (hne : digits ≠ [])
      (h : ∀ d ∈ digits, d.isDigit = true) :
      SpelledExponent (e :: '-' :: digits) (some (-digitsValue (digits.map digitValue)))

inductive SpelledNumeral : List Char → Numeral → Prop
  | positive {whole fraction exponent : List Char} {f : Option (List Nat)} {x : Option Int}
      (hwhole : SpelledWhole whole) (hfraction : SpelledFraction fraction f)
      (hexponent : SpelledExponent exponent x) :
      SpelledNumeral (whole ++ (fraction ++ exponent)) ⟨false, whole.map digitValue, f, x⟩
  | negative {whole fraction exponent : List Char} {f : Option (List Nat)} {x : Option Int}
      (hwhole : SpelledWhole whole) (hfraction : SpelledFraction fraction f)
      (hexponent : SpelledExponent exponent x) :
      SpelledNumeral ('-' :: (whole ++ (fraction ++ exponent))) ⟨true, whole.map digitValue, f, x⟩

/-- A character that no numeral goes on with. -/
def EndsNumeral (c : Char) : Prop := c.isDigit = false ∧ c ≠ '.' ∧ c ≠ 'e' ∧ c ≠ 'E'

section Reading

variable {cs rest : List Char}

theorem readDigits_spelled (h : ∀ c ∈ cs, c.isDigit = true)
    (hrest : ∀ c ∈ rest.head?, c.isDigit = false) :
    readDigits (cs ++ rest) = (cs.map digitValue, rest) := by
  rw [readDigits, takeWhile_append_of_head h hrest, dropWhile_append_of_head h hrest]

theorem readWhole_spelled (h : SpelledWhole cs) (hrest : ∀ c ∈ rest.head?, c.isDigit = false) :
    readWhole (cs ++ rest) = .ok (cs.map digitValue, rest) := by
  cases h with
  | zero =>
    cases rest with
    | nil => rfl
    | cons c rest =>
      have hc := hrest c rfl
      change readWhole ('0' :: c :: rest) = _
      rw [readWhole, hc]
      rfl
  | @digits c cs hfirst h =>
    rw [readWhole, readDigits_spelled h hrest]
    · rfl
    · intro d ds he
      exact hfirst (List.cons.inj he).1

theorem readFraction_spelled {f : Option (List Nat)} (h : SpelledFraction cs f)
    (hrest : ∀ c ∈ rest.head?, c.isDigit = false ∧ c ≠ '.') :
    readFraction (cs ++ rest) = .ok (f, rest) := by
  cases h with
  | none =>
    rw [List.nil_append, readFraction]
    rintro ds rfl
    exact (hrest '.' rfl).2 rfl
  | @some digits hne h =>
    have hempty : (digits.map digitValue).isEmpty = false := by simpa using hne
    rw [List.cons_append, readFraction, readDigits_spelled h fun c hc => (hrest c hc).1]
    simp only [hempty, Bool.false_eq_true, if_false]

theorem readExponent_spelled {x : Option Int} (h : SpelledExponent cs x)
    (hrest : ∀ c ∈ rest.head?, c.isDigit = false ∧ c ≠ 'e' ∧ c ≠ 'E') :
    readExponent (cs ++ rest) = .ok (x, rest) := by
  have hdigits {digits : List Char} (hne : digits ≠ []) (h : ∀ d ∈ digits, d.isDigit = true) :
      readDigits (digits ++ rest) = (digits.map digitValue, rest) ∧
        (digits.map digitValue).isEmpty = false :=
    ⟨readDigits_spelled h fun c hc => (hrest c hc).1, by simpa using hne⟩
  cases h with
  | none =>
    cases rest with
    | nil => rfl
    | cons c rest =>
      obtain ⟨-, hlower, hupper⟩ := hrest c rfl
      rw [List.nil_append, readExponent, if_neg (not_or.mpr ⟨hlower, hupper⟩)]
  | @positive e sign digits he hsign hne h =>
    have hread : readSign (sign ++ digits ++ rest) = (false, digits ++ rest) := by
      rcases hsign with rfl | rfl
      · obtain ⟨d, ds, rfl⟩ := List.exists_cons_of_ne_nil hne
        have hd := h d (by simp)
        rw [List.nil_append, List.cons_append, readSign]
        · rintro ds' hplus
          obtain ⟨rfl, -⟩ := List.cons.inj hplus
          cases hd
        · rintro ds' hminus
          obtain ⟨rfl, -⟩ := List.cons.inj hminus
          cases hd
      · rfl
    obtain ⟨hdigits, hempty⟩ := hdigits hne h
    rw [List.cons_append, readExponent, if_pos he, hread]
    simp only [hdigits, hempty, Bool.false_eq_true, if_false]
  | @negative e digits he hne h =>
    obtain ⟨hdigits, hempty⟩ := hdigits hne h
    rw [List.cons_append, readExponent, if_pos he, List.cons_append, readSign]
    simp only [hdigits, hempty, Bool.false_eq_true, if_false, if_true]

theorem SpelledWhole.head (h : SpelledWhole cs) : ∃ c ∈ cs.head?, c.isDigit = true := by
  cases h with
  | zero => exact ⟨'0', rfl, by decide⟩
  | digits _ h => exact ⟨_, rfl, h _ (by simp)⟩

theorem SpelledFraction.head {f : Option (List Nat)} (h : SpelledFraction cs f) :
    ∀ c ∈ cs.head?, c = '.' := by
  cases h <;> simp

theorem SpelledExponent.head {x : Option Int} (h : SpelledExponent cs x) :
    ∀ c ∈ cs.head?, c = 'e' ∨ c = 'E' := by
  cases h <;> simp_all

theorem forall_head?_append {P : Char → Prop} {ds : List Char} (hcs : ∀ c ∈ cs.head?, P c)
    (hds : ∀ d ∈ ds.head?, P d) : ∀ c ∈ (cs ++ ds).head?, P c := by
  cases cs with
  | nil => exact hds
  | cons c cs => exact hcs

theorem readUnsigned_spelled {whole fraction exponent : List Char} {f : Option (List Nat)}
    {x : Option Int} (hwhole : SpelledWhole whole) (hfraction : SpelledFraction fraction f)
    (hexponent : SpelledExponent exponent x) (hrest : ∀ c ∈ rest.head?, EndsNumeral c) :
    readWhole (whole ++ (fraction ++ exponent) ++ rest) =
        .ok (whole.map digitValue, fraction ++ (exponent ++ rest)) ∧
      readFraction (fraction ++ (exponent ++ rest)) = .ok (f, exponent ++ rest) ∧
      readExponent (exponent ++ rest) = .ok (x, rest) := by
  have hbehind : ∀ c ∈ (exponent ++ rest).head?, c.isDigit = false ∧ c ≠ '.' := by
    refine forall_head?_append (fun c hc => ?_) fun c hc => ⟨(hrest c hc).1, (hrest c hc).2.1⟩
    rcases hexponent.head c hc with rfl | rfl <;> decide
  refine ⟨?_, readFraction_spelled hfraction hbehind,
    readExponent_spelled hexponent fun c hc => ⟨(hrest c hc).1, (hrest c hc).2.2⟩⟩
  rw [List.append_assoc, List.append_assoc]
  refine readWhole_spelled hwhole (forall_head?_append (fun c hc => ?_) fun c hc => (hbehind c hc).1)
  rw [hfraction.head c hc]
  decide

theorem readNumeral_spelled {numeral : Numeral} (h : SpelledNumeral cs numeral)
    (hrest : ∀ c ∈ rest.head?, EndsNumeral c) : readNumeral (cs ++ rest) = .ok (numeral, rest) := by
  cases h with
  | @positive whole fraction exponent f x hwhole hfraction hexponent =>
    obtain ⟨hw, hf, hx⟩ := readUnsigned_spelled hwhole hfraction hexponent hrest
    obtain ⟨c, hc, hdigit⟩ := hwhole.head
    obtain ⟨whole, rfl⟩ := List.head?_eq_some_iff.mp hc
    have hsign : c ≠ '-' := by
      rintro rfl
      cases hdigit
    rw [readNumeral]
    · simp only [hw, hf, hx]
      simp [hsign]
    · exact fun ds hminus => hsign (List.cons.inj hminus).1
  | negative hwhole hfraction hexponent =>
    obtain ⟨hw, hf, hx⟩ := readUnsigned_spelled hwhole hfraction hexponent hrest
    rw [List.cons_append, readNumeral]
    simp only [hw, hf, hx]
    rfl

theorem SpelledNumeral.head {numeral : Numeral} (h : SpelledNumeral cs numeral) :
    ∃ c ∈ cs.head?, c = '-' ∨ c.isDigit = true := by
  cases h with
  | positive hwhole =>
    obtain ⟨c, hc, hdigit⟩ := hwhole.head
    exact ⟨c, by simp [List.head?_append, Option.mem_def.mp hc], .inr hdigit⟩
  | negative => exact ⟨'-', rfl, .inl rfl⟩

end Reading

section Counts

/-- Digits that fit into a word are all taken. -/
theorem takeDigits_of_lt {cs : List Char} {significand : Nat}
    (h : Nat.ofDigitChars 10 cs significand < wordLimit) :
    takeDigits significand (cs.map digitValue) = (Nat.ofDigitChars 10 cs significand, cs.length) := by
  induction cs generalizing significand with
  | nil => rfl
  | cons c cs ih =>
    have hstep : 10 * significand + (c.toNat - '0'.toNat) = significand * 10 + digitValue c := by
      rw [digitValue, Nat.mul_comm]
    rw [Nat.ofDigitChars_cons, hstep] at h ⊢
    have hfits : significand * 10 + digitValue c < wordLimit := by
      rw [Nat.ofDigitChars_eq_ofDigitChars_zero] at h
      have hpower := Nat.pow_pos (n := cs.length) (show 0 < 10 by decide)
      have hle := Nat.le_mul_of_pos_left (significand * 10 + digitValue c) hpower
      omega
    rw [List.map_cons, takeDigits, if_pos hfits, ih h]
    rfl

theorem spelledWhole_toDigits (n : Nat) : SpelledWhole (Nat.toDigits 10 n) := by
  have hdigit (m : Nat) : ∀ d ∈ Nat.toDigits 10 m, d.isDigit = true := fun d hd =>
    Nat.isDigit_of_mem_toDigits (by decide) (by decide) hd
  have hfirst : ∀ c ∈ (Nat.toDigits 10 n).head?, n ≠ 0 → c ≠ '0' := by
    induction n using Nat.base_induction 10 (by decide) with
    | single m hm =>
      rw [Nat.toDigits_of_lt_base hm]
      rintro c hc hzero rfl
      have hchar : Nat.digitChar m = '0' := Option.some.inj hc
      exact absurd hchar ((by decide : ∀ m < 10, m ≠ 0 → Nat.digitChar m ≠ '0') m hm hzero)
    | digit m k hk hm ih =>
      obtain ⟨first, front, hfront⟩ :=
        List.exists_cons_of_ne_nil (Nat.toDigits_ne_nil (n := m) (b := 10))
      rw [← Nat.toDigits_append_toDigits (by decide) hm hk, hfront]
      exact fun c hc _ => ih c (hfront ▸ hc) (by omega)
  by_cases hzero : n = 0
  · subst hzero
    exact .zero
  · obtain ⟨c, cs, hcs⟩ := List.exists_cons_of_ne_nil (Nat.toDigits_ne_nil (n := n) (b := 10))
    have hdigits := hdigit n
    rw [hcs] at hfirst hdigits ⊢
    exact .digits (hfirst c rfl hzero) hdigits

theorem spelled_count {n : Nat} (h : n < wordLimit) : ∃ numeral,
    SpelledNumeral (Nat.toDigits 10 n) numeral ∧ numeral.number? = some (.integer n) := by
  refine ⟨⟨false, (Nat.toDigits 10 n).map digitValue, none, none⟩, ?_, ?_⟩
  · simpa using SpelledNumeral.positive (spelledWhole_toDigits n) .none .none
  · have hvalue : Nat.ofDigitChars 10 (Nat.toDigits 10 n) 0 = n := Nat.ofDigitChars_ten_toDigits
    have htaken := takeDigits_of_lt (hvalue.symm ▸ h)
    rw [hvalue] at htaken
    simp [Numeral.number?, htaken]

end Counts

end TemplateViews.Json
