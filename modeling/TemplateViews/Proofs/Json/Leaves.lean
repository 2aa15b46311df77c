import Mathlib.Data.List.TakeWhile
import TemplateViews.Proofs.Json.Numerals
import TemplateViews.Proofs.Json.Strings
import TemplateViews.Proofs.Outcome

/-! Numerals and strings that were read without a fault. What a reader took from the text is spelled
as the grammar says, and the rest of the text is what it left. -/

namespace TemplateViews.Json

section Numerals

variable {cs rest : List Char}

theorem exists_of_readDigits (cs : List Char) :
    ∃ text, cs = text ++ (readDigits cs).2 ∧ (∀ c ∈ text, c.isDigit = true) ∧
      (readDigits cs).1 = text.map digitValue :=
  ⟨cs.takeWhile Char.isDigit, List.takeWhile_append_dropWhile.symm,
    fun _ hc => List.mem_takeWhile_imp hc, rfl⟩

theorem exists_of_readDigits_ne {fault : Fault} {α : Type} {f : List Nat → α} {a : α}
    (h : (if (readDigits cs).1.isEmpty then .error fault
      else .ok (f (readDigits cs).1, (readDigits cs).2)) = (.ok (a, rest) : Except Fault _)) :
    ∃ text, cs = text ++ rest ∧ text ≠ [] ∧ (∀ c ∈ text, c.isDigit = true) ∧
      a = f (text.map digitValue) := by
  obtain ⟨text, hcs, hdigits, hvalues⟩ := exists_of_readDigits cs
  rw [hvalues] at h
  split at h
  · cases h
  · next hne =>
    obtain ⟨rfl, rfl⟩ := Prod.mk.inj (Except.ok.inj h)
    refine ⟨text, hcs, ?_, hdigits, rfl⟩
    rintro rfl
    exact hne rfl

theorem exists_of_readWhole {whole : List Nat} (h : readWhole cs = .ok (whole, rest)) :
    ∃ text, cs = text ++ rest ∧ SpelledWhole text ∧ whole = text.map digitValue := by
  unfold readWhole at h
  split at h
  · next c behind =>
    split at h
    · cases h
    · obtain ⟨rfl, rfl⟩ := Prod.mk.inj (Except.ok.inj h)
      exact ⟨['0'], rfl, .zero, rfl⟩
  · next hfirst =>
    obtain ⟨text, rfl, hne, hdigits, rfl⟩ := exists_of_readDigits_ne (f := id) h
    refine ⟨text, rfl, ?_, rfl⟩
    obtain ⟨c, ds, rfl⟩ := List.exists_cons_of_ne_nil hne
    by_cases hzero : c = '0'
    · subst hzero
      cases ds with
      | nil => exact .zero
      | cons d ds => exact absurd rfl (hfirst d (ds ++ rest))
    · exact .digits hzero hdigits

theorem exists_of_readFraction {fraction : Option (List Nat)}
    (h : readFraction cs = .ok (fraction, rest)) :
    ∃ text, cs = text ++ rest ∧ SpelledFraction text fraction := by
  unfold readFraction at h
  split at h
  · next behind =>
    obtain ⟨text, rfl, hne, hdigits, rfl⟩ := exists_of_readDigits_ne (f := some) h
    exact ⟨'.' :: text, rfl, .some hne hdigits⟩
  · obtain ⟨rfl, rfl⟩ := Prod.mk.inj (Except.ok.inj h)
    exact ⟨[], rfl, .none⟩

theorem readSign_cases (cs : List Char) :
    (∃ sign, (sign = [] ∨ sign = ['+']) ∧ (readSign cs).1 = false ∧ cs = sign ++ (readSign cs).2) ∨
      (readSign cs).1 = true ∧ cs = '-' :: (readSign cs).2 := by
  unfold readSign
  split
  · exact .inl ⟨['+'], .inr rfl, rfl, rfl⟩
  · exact .inr ⟨rfl, rfl⟩
  · exact .inl ⟨[], .inl rfl, rfl, rfl⟩

theorem exists_of_readExponent {exponent : Option Int}
    (h : readExponent cs = .ok (exponent, rest)) :
    ∃ text, cs = text ++ rest ∧ SpelledExponent text exponent := by
  unfold readExponent at h
  split at h
  · next e behind =>
    by_cases he : e = 'e' ∨ e = 'E'
    · rw [if_pos he] at h
      obtain ⟨digits, hbehind, hne, hdigits, rfl⟩ := exists_of_readDigits_ne
        (f := fun digits => some (if (readSign behind).1 then -(digitsValue digits : Int)
          else digitsValue digits)) h
      rcases readSign_cases behind with ⟨sign, hsign, hpositive, hcs⟩ | ⟨hnegative, hcs⟩
      · refine ⟨e :: (sign ++ digits), ?_, ?_⟩
        · rw [List.cons_append, List.append_assoc, ← hbehind, ← hcs]
        · rw [hpositive]
          exact .positive he hsign hne hdigits
      · refine ⟨e :: '-' :: digits, ?_, ?_⟩
        · rw [List.cons_append, List.cons_append, ← hbehind, ← hcs]
        · rw [hnegative]
          exact .negative he hne hdigits
    · rw [if_neg he] at h
      obtain ⟨rfl, rfl⟩ := Prod.mk.inj (Except.ok.inj h)
      exact ⟨[], rfl, .none⟩
  · obtain ⟨rfl, rfl⟩ := Prod.mk.inj (Except.ok.inj h)
    exact ⟨[], rfl, .none⟩

theorem exists_of_readUnsigned {f : List Nat → Option (List Nat) → Option Int → Numeral}
    {numeral : Numeral}
    (h : (match readWhole cs with
      | .error fault => .error fault
      | .ok (whole, rest) =>
        match readFraction rest with
        | .error fault => .error fault
        | .ok (fraction, rest) =>
          match readExponent rest with
          | .error fault => .error fault
          | .ok (exponent, rest) => .ok (f whole fraction exponent, rest)) =
        (.ok (numeral, rest) : Except Fault _)) :
    ∃ whole fraction exponent x y, cs = whole ++ (fraction ++ exponent) ++ rest ∧
      SpelledWhole whole ∧ SpelledFraction fraction x ∧ SpelledExponent exponent y ∧
      numeral = f (whole.map digitValue) x y := by
  split at h
  · cases h
  · next hwhole =>
    split at h
    · cases h
    · next hfraction =>
      split at h
      · cases h
      · next hexponent =>
        obtain ⟨rfl, rfl⟩ := Prod.mk.inj (Except.ok.inj h)
        obtain ⟨whole, rfl, hw, rfl⟩ := exists_of_readWhole hwhole
        obtain ⟨fraction, rfl, hf⟩ := exists_of_readFraction hfraction
        obtain ⟨exponent, rfl, hx⟩ := exists_of_readExponent hexponent
        exact ⟨whole, fraction, exponent, _, _, by simp, hw, hf, hx, rfl⟩

theorem exists_of_readNumeral {numeral : Numeral} (h : readNumeral cs = .ok (numeral, rest)) :
    ∃ text, cs = text ++ rest ∧ SpelledNumeral text numeral := by
  by_cases hminus : ∃ unsigned, cs = '-' :: unsigned
  · obtain ⟨unsigned, rfl⟩ := hminus
    obtain ⟨whole, fraction, exponent, x, y, rfl, hwhole, hfraction, hexponent, rfl⟩ :=
      exists_of_readUnsigned (f := Numeral.mk true) h
    exact ⟨_, rfl, .negative hwhole hfraction hexponent⟩
  · have hsign : (cs.head? == some '-') = false := by
      cases cs with
      | nil => rfl
      | cons c unsigned =>
        refine beq_eq_false_iff_ne.mpr fun hc => hminus ⟨unsigned, ?_⟩
        rw [Option.some.inj hc]
    rw [readNumeral, hsign] at h
    · obtain ⟨whole, fraction, exponent, x, y, rfl, hwhole, hfraction, hexponent, rfl⟩ :=
        exists_of_readUnsigned (f := Numeral.mk false) h
      exact ⟨_, rfl, .positive hwhole hfraction hexponent⟩
    · exact fun unsigned hcs => hminus ⟨unsigned, hcs⟩

end Numerals

section Strings

variable {cs rest : List Char}

theorem exists_of_readUnit {n : Nat} (h : readUnit cs = .ok (n, rest)) :
    ∃ digits, cs = digits ++ rest ∧ SpelledUnit digits n := by
  unfold readUnit at h
  split at h
  · cases h
  · split at h
    · split at h
      · next ha hb hc hd =>
        obtain ⟨rfl, rfl⟩ := Prod.mk.inj (Except.ok.inj h)
        exact ⟨_, rfl, .intro ha hb hc hd⟩
      · cases h
    · cases h

theorem exists_of_readElement {e : Element} (h : readElement cs = .ok (some (e, rest))) :
    ∃ text, cs = text ++ rest ∧ SpelledElement text e := by
  unfold readElement at h
  split at h
  · cases h
  · next c behind =>
    split at h
    · cases h
    · next hquote =>
      split at h
      · next hslash =>
        subst hslash
        split at h
        · cases h
        · next letter behind =>
          split at h
          · next hletter =>
            obtain ⟨⟨n, _⟩, hunit, hread⟩ := map_eq_ok_iff.mp h
            obtain ⟨rfl, rfl⟩ := Prod.mk.inj (Option.some.inj hread)
            obtain ⟨digits, rfl, hdigits⟩ := exists_of_readUnit hunit
            exact ⟨_, by rw [hletter]; rfl, .unit hdigits⟩
          · split at h
            · next hescape =>
              obtain ⟨rfl, rfl⟩ := Prod.mk.inj (Option.some.inj (Except.ok.inj h))
              exact ⟨_, rfl, .escape hescape⟩
            · cases h
      · next hslash =>
        split at h
        · cases h
        · next hcontrol =>
          obtain ⟨rfl, rfl⟩ := Prod.mk.inj (Option.some.inj (Except.ok.inj h))
          exact ⟨_, rfl, .plain (Nat.not_lt.mp hcontrol) hquote hslash⟩

theorem eq_quote_of_readElement (h : readElement cs = .ok none) : cs = '"' :: cs.tail := by
  unfold readElement at h
  split at h
  · cases h
  · next c behind =>
    by_cases hquote : c = '"'
    · rw [hquote]
      rfl
    · rw [if_neg hquote] at h
      split at h
      · split at h
        · cases h
        · split at h
          · obtain ⟨read, -, hread⟩ := map_eq_ok_iff.mp h
            cases hread
          · split at h <;> cases h
      · split at h <;> cases h

theorem exists_of_readElements {es : List Element} (h : readElements cs = (es, .ok rest)) :
    ∃ inner, cs = inner ++ '"' :: rest ∧ SpelledElements inner es := by
  -- an element takes a character at least, so what stands behind it is shorter
  induction hlength : cs.length using Nat.strong_induction_on generalizing cs es with
  | _ length ih =>
    rw [readElements] at h
    split at h
    · cases h
    · next hend =>
      obtain ⟨rfl, hrest⟩ := Prod.mk.inj h
      obtain rfl := Except.ok.inj hrest
      exact ⟨[], eq_quote_of_readElement hend, .nil⟩
    · next e behind hfirst =>
      obtain ⟨rfl, hrest⟩ := Prod.mk.inj h
      obtain ⟨inner, hinner, hes⟩ :=
        ih _ (hlength ▸ length_readElement hfirst) (Prod.ext rfl hrest) rfl
      obtain ⟨text, rfl, helement⟩ := exists_of_readElement hfirst
      exact ⟨text ++ inner, by rw [List.append_assoc, ← hinner], .cons helement hes⟩

theorem hexDigit?_lt {c : Char} {n : Nat} (h : hexDigit? c = some n) : n < 16 := by
  have hle {a b : Char} : a ≤ b ↔ a.toNat ≤ b.toNat := Iff.rfl
  have hzero : '0'.toNat = 48 := rfl
  have hlower : 'a'.toNat = 97 ∧ 'f'.toNat = 102 := ⟨rfl, rfl⟩
  have hupper : 'A'.toNat = 65 ∧ 'F'.toNat = 70 := ⟨rfl, rfl⟩
  unfold hexDigit? at h
  split at h
  · next hdigit =>
    have hnine : c.toNat ≤ 57 := of_decide_eq_true (Bool.and_eq_true_iff.mp hdigit).2
    obtain rfl := Option.some.inj h
    omega
  · split at h
    · next hletter =>
      rw [hle, hle] at hletter
      obtain rfl := Option.some.inj h
      omega
    · split at h
      · next hletter =>
        rw [hle, hle] at hletter
        obtain rfl := Option.some.inj h
        omega
      · cases h

theorem SpelledUnit.lt {n : Nat} (h : SpelledUnit cs n) : n < 0x10000 := by
  cases h with
  | intro ha hb hc hd =>
    have := hexDigit?_lt ha
    have := hexDigit?_lt hb
    have := hexDigit?_lt hc
    have := hexDigit?_lt hd
    omega

theorem exists_of_map_pairUnits {es : List Element} {c : Char} {text : List Char}
    (h : ((pairUnits es).map fun (cs, half) => (c :: cs, half)) = some (text, false)) :
    ∃ behind, pairUnits es = some (behind, false) ∧ text = c :: behind := by
  obtain ⟨⟨behind, half⟩, hes, hread⟩ := Option.map_eq_some_iff.mp h
  obtain ⟨rfl, rfl⟩ := Prod.mk.inj hread
  exact ⟨behind, hes, rfl⟩

theorem spelledChar_unit {digits : List Char} {n : Nat} (h : SpelledUnit digits n)
    (hlow : isLowSurrogate n = false) (hhigh : isHighSurrogate n = false) :
    SpelledChar ('\\' :: 'u' :: digits) (Char.ofNat n) := by
  have hvalid : n.isValidChar := by
    have := h.lt
    simp only [isLowSurrogate, isHighSurrogate, Bool.and_eq_false_iff, decide_eq_false_iff_not] at *
    unfold Nat.isValidChar
    omega
  refine .unit ?_
  rw [Char.ofNat, dif_pos hvalid]
  exact h

theorem spelledChar_pair {high low : List Char} {n m : Nat} (hhigh : SpelledUnit high n)
    (hlow : SpelledUnit low m) (hn : isHighSurrogate n = true) (hm : isLowSurrogate m = true) :
    SpelledChar ('\\' :: 'u' :: high ++ '\\' :: 'u' :: low)
      (Char.ofNat (0x10000 + (n - 0xd800) * 0x400 + (m - 0xdc00))) := by
  simp only [isLowSurrogate, isHighSurrogate, Bool.and_eq_true, decide_eq_true_eq] at hn hm
  obtain ⟨i, rfl⟩ := Nat.exists_eq_add_of_le hn.1
  obtain ⟨j, rfl⟩ := Nat.exists_eq_add_of_le hm.1
  rw [Nat.add_sub_cancel_left, Nat.add_sub_cancel_left]
  have hvalid : (0x10000 + i * 0x400 + j).isValidChar := by
    unfold Nat.isValidChar
    omega
  refine .pair (by omega) (by omega) hhigh hlow ?_
  rw [Char.ofNat, dif_pos hvalid]
  rfl

/-- Elements stand for characters one by one, or by two that make up a pair. -/
theorem spelledText_of_elements {es : List Element} {text : List Char} (h : SpelledElements cs es)
    (hpairs : pairUnits es = some (text, false)) : SpelledText cs text := by
  induction es using pairUnits.induct generalizing cs text with
  | case1 =>
    cases h
    obtain ⟨rfl, -⟩ := Prod.mk.inj (Option.some.inj hpairs)
    exact .nil
  | case2 c es ih =>
    obtain ⟨behind, hbehind, rfl⟩ := exists_of_map_pairUnits hpairs
    cases h with
    | cons helement hrest =>
      cases helement with
      | plain hcontrol hquote hslash =>
        exact .cons (.plain hcontrol hquote hslash) (ih hrest hbehind)
      | escape hescape => exact .cons (.escape hescape) (ih hrest hbehind)
  | case3 n es hlow =>
    rw [pairUnits.eq_def] at hpairs
    simp [hlow] at hpairs
  | case4 n hlow hhigh => simp [pairUnits, hlow, hhigh] at hpairs
  | case5 n hlow hhigh c es => simp [pairUnits, hlow, hhigh] at hpairs
  | case6 n hlow hhigh m es hlow' ih =>
    rw [pairUnits, if_neg hlow, if_pos hhigh] at hpairs
    simp only [hlow', if_true] at hpairs
    obtain ⟨behind, hbehind, rfl⟩ := exists_of_map_pairUnits hpairs
    cases h with
    | cons hfirst hrest =>
      cases hfirst with
      | unit hhighUnit =>
        cases hrest with
        | cons hsecond hrest =>
          cases hsecond with
          | unit hlowUnit =>
            rw [← List.append_assoc]
            exact .cons (spelledChar_pair hhighUnit hlowUnit hhigh hlow') (ih hrest hbehind)
  | case7 n hlow hhigh m es hlow' => simp [pairUnits, hlow, hhigh, hlow'] at hpairs
  | case8 n es hlow hhigh ih =>
    rw [pairUnits.eq_def] at hpairs
    simp only [hlow, hhigh, Bool.false_eq_true, if_false] at hpairs
    obtain ⟨behind, hbehind, rfl⟩ := exists_of_map_pairUnits hpairs
    cases h with
    | cons helement hrest =>
      cases helement with
      | unit hunit =>
        have hchar := spelledChar_unit hunit (by simpa using hlow) (by simpa using hhigh)
        exact .cons hchar (ih hrest hbehind)

theorem exists_of_readString {text : Option String} (h : readString cs = .closed text rest) :
    ∃ inner, cs = inner ++ '"' :: rest ∧ SpelledString ('"' :: (inner ++ ['"'])) text := by
  unfold readString at h
  split at h
  · next es behind hread =>
    obtain ⟨inner, rfl, hes⟩ := exists_of_readElements hread
    split at h
    · next text' hpairs =>
      obtain ⟨rfl, rfl⟩ := StringRead.closed.inj h
      exact ⟨inner, rfl, .text (spelledText_of_elements hes hpairs)⟩
    · next hhalf =>
      obtain ⟨rfl, rfl⟩ := StringRead.closed.inj h
      exact ⟨inner, rfl, .half hes hhalf⟩
  · cases h

end Strings

end TemplateViews.Json
