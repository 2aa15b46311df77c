import Mathlib.Data.Nat.Digits.Defs
import TemplateViews.Json.Text
import TemplateViews.Proofs.Text.Quoted
import TemplateViews.Proofs.Text.Trim

/-! String literals of the generated source, read by the rules of its language. A quoted
text is a literal that stands for the text, and ends where the text's quote ends. -/

namespace TemplateViews

def escapeLetter? : Char → Option Char
  | '0' => some '\x00'
  | 't' => some '\t'
  | 'r' => some '\r'
  | 'n' => some '\n'
  | '"' => some '"'
  | '\x27' => some '\x27'
  | '\\' => some '\\'
  | _ => none

def readByte : List Char → Option (List Char × List Char)
  | high :: low :: rest =>
    match Json.hexDigit? high, Json.hexDigit? low with
    | some high, some low =>
      if high < 8 then some ([Char.ofNat (16 * high + low)], rest) else none
    | _, _ => none
  | _ => none

def isPointDigit (c : Char) : Bool := c == '_' || (Json.hexDigit? c).isSome

def hexValue (digits : List Nat) : Nat := digits.foldl (fun value digit => 16 * value + digit) 0

/-- The character whose code point is written up to a closing brace: one to six hexadecimal
digits, each of which underscores may follow. -/
def readCodePoint (cs : List Char) : Option (List Char × List Char) :=
  match cs.dropWhile isPointDigit with
  | '}' :: rest =>
    let written := cs.takeWhile isPointDigit
    let digits := written.filterMap Json.hexDigit?
    if written.head?.any (· ≠ '_') ∧ digits.length ≤ 6 ∧ (hexValue digits).isValidChar then
      some ([Char.ofNat (hexValue digits)], rest)
    else none
  | _ => none

/-- What an escape stands for, read behind its backslash, and the text behind it. A line
that ends in a backslash goes on with what is not blank in the lines below. -/
def readEscape : List Char → Option (List Char × List Char)
  | [] => none
  | 'x' :: cs => readByte cs
  | 'u' :: '{' :: cs => readCodePoint cs
  | '\n' :: cs => some ([], cs.dropWhile fun c => c == ' ' || c == '\t' || c == '\n' || c == '\r')
  | c :: cs => (escapeLetter? c).map fun char => ([char], cs)

theorem length_readByte {cs chars rest : List Char} (h : readByte cs = some (chars, rest)) :
    rest.length < cs.length := by
  unfold readByte at h
  split at h
  · split at h
    · split at h
      · obtain ⟨-, rfl⟩ := by simpa using h
        simp only [List.length_cons]
        omega
      · cases h
    · cases h
  · cases h

theorem length_readCodePoint {cs chars rest : List Char}
    (h : readCodePoint cs = some (chars, rest)) : rest.length < cs.length := by
  unfold readCodePoint at h
  split at h
  · next behind hbehind =>
    dsimp only at h
    split at h
    · obtain ⟨-, rfl⟩ := by simpa using h
      have hle := (List.dropWhile_sublist (l := cs) isPointDigit).length_le
      rw [hbehind, List.length_cons] at hle
      exact hle
    · cases h
  · cases h

theorem length_readEscape {cs chars rest : List Char} (h : readEscape cs = some (chars, rest)) :
    rest.length < cs.length := by
  unfold readEscape at h
  split at h
  · cases h
  · exact (length_readByte h).trans (by simp)
  · exact (length_readCodePoint h).trans (by simp only [List.length_cons]; omega)
  · obtain ⟨-, rfl⟩ := by simpa using h
    exact Nat.lt_succ_of_le (List.dropWhile_sublist _).length_le
  · obtain ⟨char, -, hread⟩ := Option.map_eq_some_iff.mp h
    obtain ⟨-, rfl⟩ := Prod.mk.inj hread
    simp

/-- What a literal stands for from a place in it on, and the text behind its closing quote.
A carriage return has to be escaped. -/
def readUntilQuote : List Char → Option (List Char × List Char)
  | [] => none
  | c :: cs =>
    if c = '"' then some ([], cs)
    else if c = '\\' then
      match _h : readEscape cs with
      | none => none
      | some (chars, rest) => (readUntilQuote rest).map fun read => (chars ++ read.1, read.2)
    else if c = '\r' then none
    else (readUntilQuote cs).map fun read => (c :: read.1, read.2)
termination_by cs => cs.length
decreasing_by
  · exact (length_readEscape _h).trans (by simp)
  · simp

def readLiteral : List Char → Option (List Char × List Char)
  | '"' :: cs => readUntilQuote cs
  | _ => none

theorem length_readUntilQuote {cs text rest : List Char}
    (h : readUntilQuote cs = some (text, rest)) : rest.length < cs.length := by
  fun_induction readUntilQuote cs generalizing text with
  | case1 => cases h
  | case2 cs =>
    obtain ⟨-, rfl⟩ := by simpa using h
    exact Nat.lt_succ_self _
  | case3 => cases h
  | case4 cs chars behind hescape hquote ih =>
    obtain ⟨read, hread, he⟩ := Option.map_eq_some_iff.mp h
    obtain ⟨-, rfl⟩ := Prod.mk.inj he
    exact ((ih hread).trans (length_readEscape hescape)).trans (Nat.lt_succ_self _)
  | case5 => cases h
  | case6 c cs hquote hslash hreturn ih =>
    obtain ⟨read, hread, he⟩ := Option.map_eq_some_iff.mp h
    obtain ⟨-, rfl⟩ := Prod.mk.inj he
    exact (ih hread).trans (Nat.lt_succ_self _)

theorem length_readLiteral {cs text rest : List Char} (h : readLiteral cs = some (text, rest)) :
    rest.length < cs.length := by
  unfold readLiteral at h
  split at h
  · exact (length_readUntilQuote h).trans (Nat.lt_succ_self _)
  · cases h

theorem hexValue_append (digits : List Nat) (digit : Nat) :
    hexValue (digits ++ [digit]) = 16 * hexValue digits + digit := by
  rw [hexValue, List.foldl_append]
  rfl

theorem hexDigit?_digitChar {digit : Nat} (h : digit < 16) :
    Json.hexDigit? (Nat.digitChar digit) = some digit := by
  revert digit
  decide

theorem hexValue_toDigits (n : Nat) :
    hexValue ((Nat.toDigits 16 n).filterMap Json.hexDigit?) = n := by
  induction n using Nat.strongRecOn with
  | ind n ih =>
    by_cases hn : n < 16
    · rw [Nat.toDigits_of_lt_base hn, List.filterMap_cons, hexDigit?_digitChar hn]
      simp [hexValue]
    · have hlast : n % 16 < 16 := Nat.mod_lt n (by decide)
      rw [Nat.toDigits_of_base_le (by decide) (by omega), List.filterMap_append, List.filterMap_cons,
        hexDigit?_digitChar hlast]
      rw [List.filterMap_nil, hexValue_append, ih (n / 16) (by omega)]
      omega

theorem readCodePoint_toDigits (c : Char) (cs : List Char) :
    readCodePoint (Nat.toDigits 16 c.toNat ++ '}' :: cs) = some ([c], cs) := by
  have hdigit : ∀ d ∈ Nat.toDigits 16 c.toNat, isPointDigit d = true :=
    forall_mem_toDigits (P := (isPointDigit · = true)) (by decide) c.toNat
  have hbehind : ∀ d ∈ ('}' :: cs).head?, isPointDigit d = false := by
    intro d hd
    obtain rfl : '}' = d := by simpa using hd
    decide
  have hfirst : (Nat.toDigits 16 c.toNat).head?.any (· ≠ '_') = true := by
    have hne : Nat.toDigits 16 c.toNat ≠ [] := Nat.toDigits_ne_nil
    obtain ⟨first, more, hdigits⟩ := List.exists_cons_of_ne_nil hne
    have hunderscore := forall_mem_toDigits (P := (· ≠ '_')) (by decide) c.toNat first
    rw [hdigits] at hunderscore ⊢
    simpa using hunderscore
  have hlength : ((Nat.toDigits 16 c.toNat).filterMap Json.hexDigit?).length ≤ 6 := by
    refine (List.length_filterMap_le _ _).trans (Nat.toDigits_length 16 _ 6 (by decide) ?_)
    rcases c.valid with hlow | ⟨-, hhigh⟩
    · exact hlow.trans (by decide)
    · exact hhigh.trans (by decide)
  have hvalue := hexValue_toDigits c.toNat
  rw [readCodePoint, dropWhile_append_of_head hdigit hbehind]
  dsimp only
  rw [takeWhile_append_of_head hdigit hbehind, hvalue]
  exact (if_pos ⟨hfirst, hlength, c.valid⟩).trans (by rw [Char.ofNat_toNat])

theorem readUntilQuote_quoteChar (c : Char) (cs : List Char) :
    readUntilQuote (quoteChar c ++ cs) =
      (readUntilQuote cs).map fun read => (c :: read.1, read.2) := by
  have hescape {e : List Char} (he : readEscape (e ++ cs) = some ([c], cs)) :
      readUntilQuote ('\\' :: (e ++ cs)) =
        (readUntilQuote cs).map fun read => (c :: read.1, read.2) := by
    rw [readUntilQuote, if_neg (by decide), if_pos rfl, he]
    rfl
  unfold quoteChar
  split
  · next hc => exact hescape (e := ['0']) (by rw [hc]; rfl)
  split
  · next hc => exact hescape (e := ['t']) (by rw [hc]; rfl)
  split
  · next hc => exact hescape (e := ['r']) (by rw [hc]; rfl)
  split
  · next hc => exact hescape (e := ['n']) (by rw [hc]; rfl)
  split
  · next hc => exact hescape (e := ['"']) (by rw [hc]; rfl)
  split
  · next hc => exact hescape (e := ['\\']) (by rw [hc]; rfl)
  next hreturn _ hquote hslash =>
  split
  · rw [List.singleton_append, readUntilQuote, if_neg hquote, if_neg hslash, if_neg hreturn]
  · exact hescape (e := ['u', '{'] ++ Nat.toDigits 16 c.toNat ++ ['}'])
      (by simpa [readEscape] using readCodePoint_toDigits c cs)

theorem readLiteral_quoted (text : String) (rest : List Char) :
    readLiteral ((quoted text).toList ++ rest) = some (text.toList, rest) := by
  have hread (cs : List Char) :
      readUntilQuote (cs.flatMap quoteChar ++ '"' :: rest) = some (cs, rest) := by
    induction cs with
    | nil => simp [readUntilQuote]
    | cons c cs ih =>
      rw [List.flatMap_cons, List.append_assoc, readUntilQuote_quoteChar, ih]
      rfl
  simpa [quoted, readLiteral] using hread text.toList

example : readLiteral "\"a\\x41\\u\x7be_9\x7d\\\n  b\" c".toList =
    some ("aAéb".toList, " c".toList) := by decide +kernel

end TemplateViews
