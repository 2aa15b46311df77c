import TemplateViews.Proofs.Markup.ByteScan
import TemplateViews.Proofs.Text.NamePath
import TemplateViews.Proofs.Text.Utf8

/-! Positions in bytes that stand between characters. The bytes that a scan acts on are those of
ASCII characters, and no byte of a longer character is one of them; so the search for a closing
delimiter ends behind the body that the characters have, and a path of identifiers ends with its
last character. -/

namespace TemplateViews.Markup

/-- How many bytes a text takes. -/
def size (cs : List Char) : Nat := (Utf8.encode cs).length

/-- A stretch of the bytes of a line that starts and stops between characters. -/
def OnBoundaries (line : List Char) (start stop : Nat) : Prop :=
  ∃ before inside after, line = before ++ inside ++ after ∧ start = size before ∧
    stop = size (before ++ inside)

section Bytes

variable {b : UInt8} {c : Char}

theorem size_append (cs cs' : List Char) : size (cs ++ cs') = size cs + size cs' := by
  rw [size, Utf8.encode_append, List.length_append]
  rfl

theorem toNat_byteChar (b : UInt8) : (byteChar b).toNat = b.toNat := by
  have hlt := b.toNat_lt
  have hvalid : b.toNat.isValidChar := .inl (by omega)
  rw [byteChar, Char.ofNat, dif_pos hvalid]
  rfl

theorem utf8EncodeChar_ascii (hc : c.toNat < 0x80) :
    ∃ b, String.utf8EncodeChar c = [b] ∧ byteChar b = c := by
  refine ⟨UInt8.ofNat c.toNat, ?_, ?_⟩
  · rw [Utf8.utf8EncodeChar_eq, if_pos (by omega)]
  · have hnat : (UInt8.ofNat c.toNat).toNat = c.toNat := by
      rw [UInt8.toNat_ofNat']
      omega
    rw [byteChar, hnat, Char.ofNat_toNat]

/-- No byte of a longer character is one of ASCII. -/
theorem utf8EncodeChar_wide (hc : 0x80 ≤ c.toNat) : ∃ b more, String.utf8EncodeChar c = b :: more ∧
    ∀ d ∈ b :: more, 0x80 ≤ (byteChar d).toNat := by
  have hcontinuation (n : Nat) : 0x80 ≤ (byteChar (Utf8.continuation n)).toNat := by
    rw [toNat_byteChar, Utf8.toNat_continuation]
    omega
  have hlead (n : Nat) (hlow : 0x80 ≤ n) (hhigh : n < 0x100) :
      0x80 ≤ (byteChar (UInt8.ofNat n)).toNat := by
    rw [toNat_byteChar, UInt8.toNat_ofNat']
    omega
  rw [Utf8.utf8EncodeChar_eq, if_neg (by omega)]
  split
  · refine ⟨_, _, rfl, List.forall_mem_cons.mpr ⟨hlead _ (by omega) (by omega), ?_⟩⟩
    simp [hcontinuation]
  split
  · refine ⟨_, _, rfl, List.forall_mem_cons.mpr ⟨hlead _ (by omega) (by omega), ?_⟩⟩
    simp [hcontinuation]
  · refine ⟨_, _, rfl, List.forall_mem_cons.mpr ⟨hlead _ (by omega) (by omega), ?_⟩⟩
    simp [hcontinuation]

theorem size_cons (hc : c.toNat < 0x80) (cs : List Char) : size (c :: cs) = size cs + 1 := by
  obtain ⟨b, hb, -⟩ := utf8EncodeChar_ascii hc
  rw [size, Utf8.encode_cons, hb, List.singleton_append, List.length_cons]
  rfl

theorem byteChar_ne_of_wide (hb : 0x80 ≤ (byteChar b).toNat) (hc : c.toNat < 0x80) :
    byteChar b ≠ c := by
  rintro rfl
  omega

theorem cut_encode (before inside after : List Char) :
    cut (Utf8.encode (before ++ inside ++ after)) (size before) (size (before ++ inside)) =
      inside := by
  have htake : (Utf8.encode (before ++ inside ++ after)).take (size (before ++ inside)) =
      Utf8.encode (before ++ inside) := by
    rw [Utf8.encode_append (before ++ inside) after]
    exact List.take_left
  have hdrop : (Utf8.encode (before ++ inside)).drop (size before) = Utf8.encode inside := by
    rw [Utf8.encode_append before inside]
    exact List.drop_left
  rw [cut, htake, hdrop, Utf8.decodeLossy_encode]

end Bytes

section Closing

variable {opening closing : Char} {n : Nesting}

/-- The search of the bytes counts the opening delimiter of the construct too. -/
def Nesting.search (n : Nesting) : Search := ⟨n.depth + 1, n.quoting⟩

/-- The nesting behind a character that is neither a delimiter nor a mark of a literal. -/
def Nesting.past (n : Nesting) : Nesting :=
  ⟨n.depth, if n.quoting = .escaped then .inside else n.quoting⟩

theorem Nesting.past_past (n : Nesting) : n.past.past = n.past := by
  obtain ⟨depth, quoting⟩ := n
  cases quoting <;> rfl

theorem Nesting.step_wide {c : Char} (hopening : opening.toNat < 0x80)
    (hclosing : closing.toNat < 0x80) (hc : 0x80 ≤ c.toNat) (n : Nesting) :
    n.step opening closing c = some n.past := by
  have hne {d : Char} (hd : d.toNat < 0x80) : c ≠ d := by
    rintro rfl
    omega
  have hslash : c ≠ '\\' := hne (by decide)
  have hquote : c ≠ '"' := hne (by decide)
  obtain ⟨depth, quoting⟩ := n
  cases quoting with
  | outside => simp [step, past, hquote, hne hopening, hne hclosing]
  | inside => simp [step, past, hslash, hquote]
  | escaped => simp [step, past]

/-- A step of the search is a step of the nesting. -/
theorem Nesting.search_step (b : UInt8) : n.search.step opening closing b =
    match n.step opening closing (byteChar b) with
    | none => (⟨0, .outside⟩, true)
    | some next => (next.search, false) := by
  obtain ⟨depth, quoting⟩ := n
  cases quoting with
  | escaped => rfl
  | inside =>
    simp only [search, Search.step, step]
    split
    · rfl
    split
    · rfl
    · rfl
  | outside =>
    simp only [search, Search.step, step]
    split
    · rfl
    split
    · simp
    split
    · cases depth with
      | zero => simp
      | succ depth =>
        have hopen : ¬ ((depth : Int) + 1 = 0) := by omega
        simp [hopen]
    · rfl

theorem findClosing_cons (i : Nat) (b : UInt8) (rest : List UInt8) :
    (findClosing opening closing n.search i (b :: rest)).2 =
      match n.step opening closing (byteChar b) with
      | none => some i
      | some next => (findClosing opening closing next.search (i + 1) rest).2 := by
  rw [findClosing, Nesting.search_step]
  cases n.step opening closing (byteChar b) with
  | none => rfl
  | some next => rfl

theorem findClosing_wide (hopening : opening.toNat < 0x80) (hclosing : closing.toNat < 0x80)
    (hn : n.past = n) {bytes : List UInt8} (hwide : ∀ b ∈ bytes, 0x80 ≤ (byteChar b).toNat)
    (i : Nat) (rest : List UInt8) :
    (findClosing opening closing n.search i (bytes ++ rest)).2 =
      (findClosing opening closing n.search (i + bytes.length) rest).2 := by
  induction bytes generalizing i with
  | nil => rfl
  | cons b bytes ih =>
    obtain ⟨hb, hbytes⟩ := List.forall_mem_cons.mp hwide
    have hlength : i + 1 + bytes.length = i + (b :: bytes).length := by
      rw [List.length_cons]
      omega
    rw [List.cons_append, findClosing_cons, Nesting.step_wide hopening hclosing hb, hn]
    dsimp only
    rw [ih hbytes, hlength]

/-- The closing delimiter stands behind the body. -/
theorem findClosing_encode (hopening : opening.toNat < 0x80) (hclosing : closing.toNat < 0x80)
    (i : Nat) (cs : List Char) :
    (findClosing opening closing n.search i (Utf8.encode cs)).2 =
      (readBody opening closing n cs).map fun read => i + size read.1 := by
  induction cs generalizing n i with
  | nil => rfl
  | cons c cs ih =>
    have hnext (next : Nesting) :
        (findClosing opening closing next.search (i + (String.utf8EncodeChar c).length)
          (Utf8.encode cs)).2 =
        ((readBody opening closing next cs).map fun read => (c :: read.1, read.2)).map
          fun read => i + size read.1 := by
      rw [ih, Option.map_map]
      congr 1
      funext read
      rw [Function.comp_apply, size, size, Utf8.encode_cons, List.length_append]
      omega
    rw [Utf8.encode_cons, readBody]
    by_cases hc : c.toNat < 0x80
    · obtain ⟨b, hb, hbyte⟩ := utf8EncodeChar_ascii hc
      rw [hb, List.singleton_append, findClosing_cons, hbyte]
      cases n.step opening closing c with
      | none => rfl
      | some next =>
        rw [hb] at hnext
        exact hnext next
    · obtain ⟨b, more, hb, hwide⟩ := utf8EncodeChar_wide (Nat.le_of_not_lt hc)
      obtain ⟨hfirst, hmore⟩ := List.forall_mem_cons.mp hwide
      -- the first byte ends an escape as the character does, the others change nothing
      have hlength : i + 1 + more.length = i + (b :: more).length := by
        rw [List.length_cons]
        omega
      rw [Nesting.step_wide hopening hclosing (Nat.le_of_not_lt hc), hb, List.cons_append,
        findClosing_cons, Nesting.step_wide hopening hclosing hfirst]
      dsimp only
      rw [findClosing_wide hopening hclosing n.past_past hmore, hlength, ← hb]
      exact hnext n.past

end Closing

/-- A byte that tells of a character what the scan asks for: which one of ASCII it is, if any, and
whether an identifier may start with it. -/
structure Leads (b : UInt8) (c : Char) : Prop where
  same : ∀ d : Char, d.toNat < 0x80 → (byteChar b = d ↔ c = d)
  name : isNameStart (byteChar b) = isNameStart c

theorem exists_leads (c : Char) : ∃ b more, String.utf8EncodeChar c = b :: more ∧ Leads b c := by
  by_cases hc : c.toNat < 0x80
  · obtain ⟨b, hb, rfl⟩ := utf8EncodeChar_ascii hc
    exact ⟨b, [], hb, fun _ _ => Iff.rfl, rfl⟩
  · obtain ⟨b, more, hb, hwide⟩ := utf8EncodeChar_wide (Nat.le_of_not_lt hc)
    have hfirst : 0x80 ≤ (byteChar b).toNat := hwide b List.mem_cons_self
    have hname (d : Char) (hd : 0x80 ≤ d.toNat) : isNameStart d = false := by
      rw [← Bool.not_eq_true]
      intro hstart
      have hbounds := isNamePart_bounds (isNamePart_of_isNameStart hstart)
      omega
    refine ⟨b, more, hb, fun d hd => ⟨fun h => ?_, fun h => ?_⟩, ?_⟩
    · exact absurd h (byteChar_ne_of_wide hfirst hd)
    · exact absurd (h ▸ hd) hc
    · rw [hname _ hfirst, hname c (Nat.le_of_not_lt hc)]

theorem size_pos {text : List Char} (h : text ≠ []) : 0 < size text := by
  obtain ⟨c, cs, rfl⟩ := List.exists_cons_of_ne_nil h
  obtain ⟨b, more, hb, -⟩ := exists_leads c
  rw [size, Utf8.encode_cons, hb, List.cons_append, List.length_cons]
  exact Nat.succ_pos _

theorem head_encode_isNameStart (cs : List Char) :
    ((Utf8.encode cs).head?.any fun b => isNameStart (byteChar b)) =
      cs.head?.any isNameStart := by
  cases cs with
  | nil => rfl
  | cons c cs =>
    obtain ⟨b, more, hb, hlead⟩ := exists_leads c
    simp [Utf8.encode_cons, hb, hlead.name]

theorem pathEnd_encode (i : Nat) (cs : List Char) :
    pathEnd i (Utf8.encode cs) = i + size (readNames cs).1 := by
  induction cs generalizing i with
  | nil => rfl
  | cons c cs ih =>
    rw [Utf8.encode_cons, readNames]
    by_cases hc : c.toNat < 0x80
    · obtain ⟨b, hb, hbyte⟩ := utf8EncodeChar_ascii hc
      rw [hb, List.singleton_append, pathEnd, hbyte, head_encode_isNameStart]
      split
      · rw [ih, size_cons hc]
        omega
      · rfl
    · obtain ⟨b, more, hb, hwide⟩ := utf8EncodeChar_wide (Nat.le_of_not_lt hc)
      have hnot (d : Char) (hd : 0x80 ≤ d.toNat) : isNamePart d = false ∧ d ≠ '.' := by
        constructor
        · rw [← Bool.not_eq_true]
          intro hpart
          have hbounds := isNamePart_bounds hpart
          omega
        · rintro rfl
          exact absurd hd (by decide)
      have hchar := hnot c (Nat.le_of_not_lt hc)
      have hbyte := hnot (byteChar b) (hwide b List.mem_cons_self)
      rw [hb, List.cons_append, pathEnd]
      simp [hchar, hbyte, size, Utf8.encode]

end TemplateViews.Markup
