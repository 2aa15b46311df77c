import TemplateViews.Proofs.Text.Utf8

/-! Bytes that decode. A piece that reads as a character is the form of that character, so bytes
decode to a text only if they are the bytes of it, and start with one that they are read with. -/

namespace TemplateViews.Utf8

section Forms

variable {first b c d : UInt8} {n : Nat}

theorem utf8EncodeChar_ofNat (h : n.isValidChar) : String.utf8EncodeChar (Char.ofNat n) =
    if n ≤ 0x7f then [UInt8.ofNat n]
    else if n ≤ 0x7ff then [UInt8.ofNat (n / 64 % 32 + 192), continuation n]
    else if n ≤ 0xffff then
      [UInt8.ofNat (n / 4096 % 16 + 224), continuation (n / 64), continuation n]
    else
      [UInt8.ofNat (n / 262144 % 8 + 240), continuation (n / 4096), continuation (n / 64),
        continuation n] := by
  have hvalue : (Char.ofNat n).toNat = n := by
    rw [Char.ofNat, dif_pos h]
    rfl
  rw [utf8EncodeChar_eq, hvalue]

theorem ofNat_eq_of_toNat (h : n = first.toNat) : UInt8.ofNat n = first := by
  rw [h, UInt8.ofNat_toNat]

theorem continuation_eq (hb : isContinuation b = true) (h : n % 64 = b.toNat % 64) :
    continuation n = b := by
  rw [isContinuation_iff] at hb
  apply ofNat_eq_of_toNat
  omega

theorem isContinuation_of_mayFollow (h : mayFollow first b = true) : isContinuation b = true := by
  rw [mayFollow_iff] at h
  exact isContinuation_iff.mpr ⟨h.1, h.2.1⟩

theorem utf8EncodeChar_one (hfirst : first.toNat < 0x80) :
    String.utf8EncodeChar (Char.ofNat first.toNat) = [first] := by
  have hvalid : first.toNat.isValidChar := .inl (by omega)
  rw [utf8EncodeChar_ofNat hvalid, if_pos (by omega), UInt8.ofNat_toNat]

theorem utf8EncodeChar_two (hfirst : 0xc2 ≤ first.toNat ∧ first.toNat ≤ 0xdf)
    (hb : isContinuation b = true) :
    String.utf8EncodeChar (Char.ofNat (first.toNat % 32 * 64 + payload b)) = [first, b] := by
  have hpayload : payload b < 64 := Nat.mod_lt _ (by decide)
  generalize hn : first.toNat % 32 * 64 + payload b = n
  have hvalid : n.isValidChar := .inl (by omega)
  have hlead : UInt8.ofNat (n / 64 % 32 + 192) = first := ofNat_eq_of_toNat (by omega)
  have hlast : continuation n = b := continuation_eq hb (by unfold payload at hn; omega)
  rw [utf8EncodeChar_ofNat hvalid, if_neg (by omega), if_pos (by omega), hlead, hlast]

theorem utf8EncodeChar_three (hfirst : 0xe0 ≤ first.toNat ∧ first.toNat ≤ 0xef)
    (hb : mayFollow first b = true) (hc : isContinuation c = true) :
    String.utf8EncodeChar (Char.ofNat ((first.toNat % 16 * 64 + payload b) * 64 + payload c)) =
      [first, b, c] := by
  have hb' := isContinuation_of_mayFollow hb
  have hpayload : payload c < 64 := Nat.mod_lt _ (by decide)
  rw [mayFollow_iff] at hb
  generalize hn : (first.toNat % 16 * 64 + payload b) * 64 + payload c = n
  -- the bounds of the second byte keep shorter forms and surrogates out
  have hlow : 0x800 ≤ n := by unfold payload at hn; omega
  have hvalid : n.isValidChar := by unfold Nat.isValidChar; unfold payload at hn; omega
  have hlead : UInt8.ofNat (n / 4096 % 16 + 224) = first :=
    ofNat_eq_of_toNat (by unfold payload at hn; omega)
  have hsecond : continuation (n / 64) = b :=
    continuation_eq hb' (by unfold payload at hn; omega)
  have hlast : continuation n = c := continuation_eq hc (by unfold payload at hn; omega)
  rw [utf8EncodeChar_ofNat hvalid, if_neg (by omega), if_neg (by omega),
    if_pos (by unfold payload at hn; omega), hlead, hsecond, hlast]

theorem utf8EncodeChar_four (hfirst : 0xf0 ≤ first.toNat ∧ first.toNat ≤ 0xf4)
    (hb : mayFollow first b = true) (hc : isContinuation c = true)
    (hd : isContinuation d = true) :
    String.utf8EncodeChar (Char.ofNat
      (((first.toNat % 8 * 64 + payload b) * 64 + payload c) * 64 + payload d)) =
      [first, b, c, d] := by
  have hb' := isContinuation_of_mayFollow hb
  rw [mayFollow_iff] at hb
  generalize hn : ((first.toNat % 8 * 64 + payload b) * 64 + payload c) * 64 + payload d = n
  unfold payload at hn
  have hlow : 0x10000 ≤ n := by omega
  have hvalid : n.isValidChar := by unfold Nat.isValidChar; omega
  have hlead : UInt8.ofNat (n / 262144 % 8 + 240) = first := ofNat_eq_of_toNat (by omega)
  have hsecond : continuation (n / 4096) = b := continuation_eq hb' (by omega)
  have hthird : continuation (n / 64) = c := continuation_eq hc (by omega)
  have hlast : continuation n = d := continuation_eq hd (by omega)
  rw [utf8EncodeChar_ofNat hvalid, if_neg (by omega), if_neg (by omega), if_neg (by omega), hlead,
    hsecond, hthird, hlast]

end Forms

section Pieces

variable {first : UInt8} {rest behind : List UInt8} {c : Char}

theorem utf8EncodeChar_of_twoBytes (hfirst : 0xc2 ≤ first.toNat ∧ first.toNat ≤ 0xdf)
    (h : twoBytes first rest = (.char c, behind)) :
    String.utf8EncodeChar c ++ behind = first :: rest := by
  cases rest with
  | nil => cases h
  | cons second rest =>
    rw [twoBytes] at h
    split at h
    · next hsecond =>
      cases h
      rw [utf8EncodeChar_two hfirst hsecond]
      rfl
    · cases h

theorem utf8EncodeChar_of_threeBytes (hfirst : 0xe0 ≤ first.toNat ∧ first.toNat ≤ 0xef)
    (h : threeBytes first rest = (.char c, behind)) :
    String.utf8EncodeChar c ++ behind = first :: rest := by
  rcases rest with _ | ⟨second, _ | ⟨third, rest⟩⟩
  · cases h
  · rw [threeBytes] at h
    split at h <;> cases h
  · rw [threeBytes] at h
    by_cases hsecond : mayFollow first second = true
    · by_cases hthird : isContinuation third = true
      · simp only [hsecond, hthird, if_true] at h
        cases h
        rw [utf8EncodeChar_three hfirst hsecond hthird]
        rfl
      · simp [hsecond, hthird] at h
    · simp [hsecond] at h

theorem utf8EncodeChar_of_fourBytes (hfirst : 0xf0 ≤ first.toNat ∧ first.toNat ≤ 0xf4)
    (h : fourBytes first rest = (.char c, behind)) :
    String.utf8EncodeChar c ++ behind = first :: rest := by
  rcases rest with _ | ⟨second, _ | ⟨third, _ | ⟨fourth, rest⟩⟩⟩
  · cases h
  · rw [fourBytes] at h
    split at h <;> cases h
  · by_cases hsecond : mayFollow first second = true
    · by_cases hthird : isContinuation third = true
      · simp [fourBytes, hsecond, hthird] at h
      · simp [fourBytes, hsecond, hthird] at h
    · simp [fourBytes, hsecond] at h
  · rw [fourBytes] at h
    by_cases hsecond : mayFollow first second = true
    · by_cases hthird : isContinuation third = true
      · by_cases hfourth : isContinuation fourth = true
        · simp only [hsecond, hthird, hfourth, if_true] at h
          cases h
          rw [utf8EncodeChar_four hfirst hsecond hthird hfourth]
          rfl
        · simp [hsecond, hthird, hfourth] at h
      · simp [hsecond, hthird] at h
    · simp [hsecond] at h

/-- A piece that reads as a character is made of the bytes of that character. -/
theorem utf8EncodeChar_of_piece (h : piece first rest = (.char c, behind)) :
    String.utf8EncodeChar c ++ behind = first :: rest := by
  rw [piece_eq] at h
  split at h
  · next hfirst =>
    cases h
    rw [utf8EncodeChar_one hfirst, List.singleton_append]
  split at h
  · next hfirst => exact utf8EncodeChar_of_twoBytes hfirst h
  split at h
  · next hfirst => exact utf8EncodeChar_of_threeBytes hfirst h
  split at h
  · next hfirst => exact utf8EncodeChar_of_fourBytes hfirst h
  · cases h

end Pieces

theorem encode_of_charsFrom {index : Nat} {bytes : List UInt8} {cs : List Char}
    (h : charsFrom index (pieces bytes) = .ok cs) : encode cs = bytes := by
  fun_induction pieces bytes generalizing index cs with
  | case1 =>
    obtain rfl : [] = cs := Except.ok.inj h
    rfl
  | case2 first rest ih =>
    generalize hpiece : piece first rest = read at h ih
    obtain ⟨found, behind⟩ := read
    cases found with
    | char c =>
      obtain ⟨more, hmore, rfl⟩ := map_eq_ok_iff.mp h
      have hrest := ih hmore
      calc encode (c :: more) = String.utf8EncodeChar c ++ encode more := encode_cons c more
        _ = String.utf8EncodeChar c ++ behind := by rw [hrest]
        _ = first :: rest := utf8EncodeChar_of_piece hpiece
    | malformed length => cases h
    | truncated => cases h

/-- Bytes decode to a text exactly if they are the bytes of the text. -/
theorem decode_eq_ok_iff {bytes : List UInt8} {cs : List Char} :
    decode bytes = .ok cs ↔ bytes = encode cs := by
  constructor
  · intro h
    exact (encode_of_charsFrom h).symm
  · rintro rfl
    exact decode_encode cs

theorem toByteArray_encode (cs : List Char) :
    (encode cs).toByteArray = (String.ofList cs).toUTF8 := by
  rw [String.toUTF8, String.toByteArray_ofList]
  rfl

theorem toByteArray_eq_iff {bytes : List UInt8} {text : String} :
    bytes.toByteArray = text.toUTF8 ↔ bytes = encode text.toList := by
  have htext : text.toUTF8 = (encode text.toList).toByteArray := by
    rw [toByteArray_encode, String.ofList_toList]
  rw [htext]
  constructor
  · intro h
    have hdata := congrArg ByteArray.data h
    simpa using hdata
  · rintro rfl
    rfl

theorem isValidUTF8_iff {bytes : List UInt8} :
    bytes.toByteArray.IsValidUTF8 ↔ ∃ text : String, bytes = encode text.toList := by
  constructor
  · rintro ⟨cs, hcs⟩
    refine ⟨String.ofList cs, toByteArray_eq_iff.mp ?_⟩
    rw [hcs, String.toUTF8, String.toByteArray_ofList]
  · rintro ⟨text, htext⟩
    exact ⟨text.toList, by rw [htext]; rfl⟩

section Lossy

variable {cs : List Char} {bytes : List UInt8}

theorem eq_char_of_lossy {read : Piece} {c : Char} (hc : c ≠ '\ufffd') (h : c = read.lossy) :
    read = .char c := by
  cases read with
  | char other => rw [h]; rfl
  | malformed length => exact absurd h hc
  | truncated => exact absurd h hc

theorem decodeLossy_encode_append (cs : List Char) (rest : List UInt8) :
    decodeLossy (encode cs ++ rest) = cs ++ decodeLossy rest := by
  rw [decodeLossy, pieces_encode_append, List.map_append, List.map_map]
  exact congrArg (· ++ decodeLossy rest) (List.map_id cs)

/-- Bytes that are read with a text at the start have the bytes of it there, unless the text has
the character that stands for unreadable bytes. -/
theorem prefix_decodeLossy_iff (hcs : '\ufffd' ∉ cs) :
    cs <+: decodeLossy bytes ↔ encode cs <+: bytes := by
  constructor
  · intro h
    induction cs generalizing bytes with
    | nil => exact List.nil_prefix
    | cons c cs ih =>
      rw [List.mem_cons, not_or] at hcs
      cases bytes with
      | nil => simp [decodeLossy, pieces] at h
      | cons first rest =>
        rw [decodeLossy, pieces, List.map_cons, List.cons_prefix_cons] at h
        obtain ⟨hfirst, hrest⟩ := h
        have hchar : (piece first rest).1 = .char c := eq_char_of_lossy (Ne.symm hcs.1) hfirst
        have hbytes := utf8EncodeChar_of_piece (Prod.ext hchar rfl)
        rw [encode_cons, ← hbytes]
        exact (List.prefix_append_right_inj _).mpr (ih hcs.2 hrest)
  · rintro ⟨rest, rfl⟩
    rw [decodeLossy_encode_append]
    exact List.prefix_append _ _

end Lossy

end TemplateViews.Utf8
