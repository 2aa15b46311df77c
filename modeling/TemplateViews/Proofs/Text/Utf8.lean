import TemplateViews.Proofs.Outcome
import TemplateViews.Text.Utf8

/-! Texts in UTF-8. The bytes of a text decode to it, so different texts have different
bytes, and a line feed parts the bytes in front of it from those behind it. -/

namespace TemplateViews.Utf8

section Bytes

variable {first second : UInt8} {rest : List UInt8}

theorem isContinuation_iff : isContinuation first = true ↔ 0x80 ≤ first.toNat ∧ first.toNat ≤ 0xbf := by
  simp [isContinuation, UInt8.le_iff_toNat_le]

theorem mayFollow_iff : mayFollow first second = true ↔
    0x80 ≤ second.toNat ∧ second.toNat ≤ 0xbf ∧
    (first.toNat = 0xe0 → 0xa0 ≤ second.toNat) ∧ (first.toNat = 0xed → second.toNat ≤ 0x9f) ∧
    (first.toNat = 0xf0 → 0x90 ≤ second.toNat) ∧ (first.toNat = 0xf4 → second.toNat ≤ 0x8f) := by
  unfold mayFollow isContinuation
  simp only [beq_iff_eq, ← UInt8.toNat_inj, UInt8.le_iff_toNat_le]
  repeat' split
  all_goals simp_all <;> omega

theorem piece_eq (first : UInt8) (rest : List UInt8) : piece first rest =
    if first.toNat < 0x80 then (.char (Char.ofNat first.toNat), rest)
    else if 0xc2 ≤ first.toNat ∧ first.toNat ≤ 0xdf then twoBytes first rest
    else if 0xe0 ≤ first.toNat ∧ first.toNat ≤ 0xef then threeBytes first rest
    else if 0xf0 ≤ first.toNat ∧ first.toNat ≤ 0xf4 then fourBytes first rest
    else (.malformed 1, rest) := by
  simp [piece, UInt8.lt_iff_toNat_lt, UInt8.le_iff_toNat_le]

end Bytes

section Encoding

/-- A byte with six bits of a number, of the kind that goes on with a character. -/
def continuation (n : Nat) : UInt8 := UInt8.ofNat (n % 64 + 128)

theorem toNat_continuation (n : Nat) : (continuation n).toNat = n % 64 + 128 := by
  rw [continuation, UInt8.toNat_ofNat']
  omega

theorem isContinuation_continuation (n : Nat) : isContinuation (continuation n) = true := by
  rw [isContinuation_iff, toNat_continuation]
  omega

theorem payload_continuation (n : Nat) : payload (continuation n) = n % 64 := by
  rw [payload, toNat_continuation]
  omega

theorem utf8EncodeChar_eq (c : Char) : String.utf8EncodeChar c =
    if c.toNat ≤ 0x7f then [UInt8.ofNat c.toNat]
    else if c.toNat ≤ 0x7ff then
      [UInt8.ofNat (c.toNat / 64 % 32 + 192), continuation c.toNat]
    else if c.toNat ≤ 0xffff then
      [UInt8.ofNat (c.toNat / 4096 % 16 + 224), continuation (c.toNat / 64), continuation c.toNat]
    else
      [UInt8.ofNat (c.toNat / 262144 % 8 + 240), continuation (c.toNat / 4096),
        continuation (c.toNat / 64), continuation c.toNat] := rfl

theorem twoBytes_continuation (first : UInt8) (n : Nat) (rest : List UInt8) :
    twoBytes first (continuation n :: rest) =
      (.char (Char.ofNat (first.toNat % 32 * 64 + n % 64)), rest) := by
  simp only [twoBytes, isContinuation_continuation, payload_continuation, if_true]

theorem threeBytes_continuation {first : UInt8} {m : Nat}
    (h : mayFollow first (continuation m) = true) (n : Nat) (rest : List UInt8) :
    threeBytes first (continuation m :: continuation n :: rest) =
      (.char (Char.ofNat ((first.toNat % 16 * 64 + m % 64) * 64 + n % 64)), rest) := by
  simp only [threeBytes, h, isContinuation_continuation, payload_continuation, if_true]

theorem fourBytes_continuation {first : UInt8} {l : Nat}
    (h : mayFollow first (continuation l) = true) (m n : Nat) (rest : List UInt8) :
    fourBytes first (continuation l :: continuation m :: continuation n :: rest) =
      (.char (Char.ofNat (((first.toNat % 8 * 64 + l % 64) * 64 + m % 64) * 64 + n % 64)),
        rest) := by
  simp only [fourBytes, h, isContinuation_continuation, payload_continuation, if_true]

/-- The bytes of a character are one piece, whatever stands behind them. -/
theorem exists_piece_utf8EncodeChar (c : Char) (rest : List UInt8) : ∃ first more,
    String.utf8EncodeChar c = first :: more ∧ piece first (more ++ rest) = (.char c, rest) := by
  have hvalid : c.toNat < 0xd800 ∨ 0xdfff < c.toNat ∧ c.toNat < 0x110000 := c.valid
  rw [utf8EncodeChar_eq]
  split
  · have hfirst : (UInt8.ofNat c.toNat).toNat = c.toNat := by
      rw [UInt8.toNat_ofNat']
      omega
    refine ⟨_, _, rfl, ?_⟩
    rw [piece_eq, hfirst, if_pos (by omega), Char.ofNat_toNat]
    rfl
  split
  · have hfirst : (UInt8.ofNat (c.toNat / 64 % 32 + 192)).toNat = c.toNat / 64 + 192 := by
      rw [UInt8.toNat_ofNat']
      omega
    have hvalue : (c.toNat / 64 + 192) % 32 * 64 + c.toNat % 64 = c.toNat := by omega
    refine ⟨_, _, rfl, ?_⟩
    rw [piece_eq, hfirst, if_neg (by omega), if_pos (by omega), List.singleton_append,
      twoBytes_continuation, hfirst, hvalue, Char.ofNat_toNat]
  split
  · have hfirst : (UInt8.ofNat (c.toNat / 4096 % 16 + 224)).toNat = c.toNat / 4096 + 224 := by
      rw [UInt8.toNat_ofNat']
      omega
    have hfollow : mayFollow (UInt8.ofNat (c.toNat / 4096 % 16 + 224))
        (continuation (c.toNat / 64)) = true := by
      rw [mayFollow_iff, hfirst, toNat_continuation]
      omega
    have hvalue : ((c.toNat / 4096 + 224) % 16 * 64 + c.toNat / 64 % 64) * 64 + c.toNat % 64 =
        c.toNat := by omega
    refine ⟨_, _, rfl, ?_⟩
    rw [piece_eq, hfirst, if_neg (by omega), if_neg (by omega), if_pos (by omega),
      List.cons_append, List.singleton_append, threeBytes_continuation hfollow, hfirst, hvalue,
      Char.ofNat_toNat]
  · have hfirst : (UInt8.ofNat (c.toNat / 262144 % 8 + 240)).toNat = c.toNat / 262144 + 240 := by
      rw [UInt8.toNat_ofNat']
      omega
    have hfollow : mayFollow (UInt8.ofNat (c.toNat / 262144 % 8 + 240))
        (continuation (c.toNat / 4096)) = true := by
      rw [mayFollow_iff, hfirst, toNat_continuation]
      omega
    have hvalue : (((c.toNat / 262144 + 240) % 8 * 64 + c.toNat / 4096 % 64) * 64 +
        c.toNat / 64 % 64) * 64 + c.toNat % 64 = c.toNat := by omega
    refine ⟨_, _, rfl, ?_⟩
    rw [piece_eq, hfirst, if_neg (by omega), if_neg (by omega), if_neg (by omega),
      if_pos (by omega), List.cons_append, List.cons_append, List.singleton_append,
      fourBytes_continuation hfollow, hfirst, hvalue, Char.ofNat_toNat]

theorem encode_append (cs cs' : List Char) : encode (cs ++ cs') = encode cs ++ encode cs' :=
  List.flatMap_append

theorem encode_cons (c : Char) (cs : List Char) :
    encode (c :: cs) = String.utf8EncodeChar c ++ encode cs := List.flatMap_cons

theorem pieces_encode_append (cs : List Char) (rest : List UInt8) :
    pieces (encode cs ++ rest) = cs.map .char ++ pieces rest := by
  induction cs with
  | nil => rfl
  | cons c cs ih =>
    obtain ⟨first, more, hencode, hpiece⟩ := exists_piece_utf8EncodeChar c (encode cs ++ rest)
    have hcons : encode (c :: cs) ++ rest = first :: (more ++ (encode cs ++ rest)) := by
      rw [encode_cons, hencode, List.cons_append, List.cons_append, List.append_assoc]
    rw [hcons, pieces, hpiece, ih]
    rfl

theorem charsFrom_map_char (index : Nat) (cs : List Char) :
    charsFrom index (cs.map .char) = .ok cs := by
  induction cs generalizing index with
  | nil => rfl
  | cons c cs ih =>
    rw [List.map_cons, charsFrom, ih]
    rfl

theorem pieces_encode (cs : List Char) : pieces (encode cs) = cs.map .char := by
  have hpieces := pieces_encode_append cs []
  rwa [List.append_nil, pieces, List.append_nil] at hpieces

theorem decode_encode (cs : List Char) : decode (encode cs) = .ok cs := by
  rw [decode, pieces_encode, charsFrom_map_char]

theorem decodeLossy_encode (cs : List Char) : decodeLossy (encode cs) = cs := by
  rw [decodeLossy, pieces_encode, List.map_map]
  exact List.map_id cs

theorem encode_injective {cs cs' : List Char} (h : encode cs = encode cs') : cs = cs' := by
  have hdecode := decode_encode cs
  rw [h, decode_encode] at hdecode
  exact (Except.ok.inj hdecode).symm

end Encoding

section LineFeeds

theorem not_isContinuation_lineFeed : isContinuation 0x0a = false := by decide

theorem not_mayFollow_lineFeed (first : UInt8) : mayFollow first 0x0a = false := by
  rw [← Bool.not_eq_true, mayFollow_iff]
  exact fun h => absurd h.1 (by decide)

/-- A piece that a line feed cuts short reads as one that the end cuts short. -/
theorem piece_append_lineFeed (first : UInt8) (rest behind : List UInt8) :
    (piece first (rest ++ 0x0a :: behind)).1.lossy = (piece first rest).1.lossy ∧
    (piece first (rest ++ 0x0a :: behind)).2 = (piece first rest).2 ++ 0x0a :: behind := by
  have htwo : (twoBytes first (rest ++ 0x0a :: behind)).1.lossy = (twoBytes first rest).1.lossy ∧
      (twoBytes first (rest ++ 0x0a :: behind)).2 = (twoBytes first rest).2 ++ 0x0a :: behind := by
    rcases rest with _ | ⟨b, rest⟩
    · simp [twoBytes, not_isContinuation_lineFeed, Piece.lossy]
    · simp only [twoBytes, List.cons_append]
      split <;> simp
  have hthree : (threeBytes first (rest ++ 0x0a :: behind)).1.lossy =
        (threeBytes first rest).1.lossy ∧
      (threeBytes first (rest ++ 0x0a :: behind)).2 =
        (threeBytes first rest).2 ++ 0x0a :: behind := by
    rcases rest with _ | ⟨b, _ | ⟨c, rest⟩⟩
    · simp [threeBytes, not_mayFollow_lineFeed, Piece.lossy]
    · simp only [threeBytes, List.cons_append, List.nil_append, not_isContinuation_lineFeed]
      split <;> simp [Piece.lossy]
    · simp only [threeBytes, List.cons_append]
      split
      · split <;> simp
      · simp
  have hfour : (fourBytes first (rest ++ 0x0a :: behind)).1.lossy =
        (fourBytes first rest).1.lossy ∧
      (fourBytes first (rest ++ 0x0a :: behind)).2 =
        (fourBytes first rest).2 ++ 0x0a :: behind := by
    rcases rest with _ | ⟨b, _ | ⟨c, _ | ⟨d, rest⟩⟩⟩
    · simp [fourBytes, not_mayFollow_lineFeed, Piece.lossy]
    · simp only [fourBytes, List.cons_append, List.nil_append, not_isContinuation_lineFeed]
      split <;> simp [Piece.lossy]
    · simp only [fourBytes, List.cons_append, List.nil_append, not_isContinuation_lineFeed]
      split
      · split <;> simp [Piece.lossy]
      · simp
    · simp only [fourBytes, List.cons_append]
      split
      · split
        · split <;> simp
        · simp
      · simp
  unfold piece
  split
  · simp
  split
  · exact htwo
  split
  · exact hthree
  split
  · exact hfour
  · simp

theorem decodeLossy_append_lineFeed (before behind : List UInt8) :
    decodeLossy (before ++ 0x0a :: behind) =
      decodeLossy before ++ '\n' :: decodeLossy behind := by
  have hlineFeed : pieces (0x0a :: behind) = .char '\n' :: pieces behind := by
    rw [pieces]
    rfl
  unfold decodeLossy
  fun_induction pieces before with
  | case1 => rw [List.nil_append, hlineFeed]; rfl
  | case2 first rest ih =>
    obtain ⟨hlossy, hrest⟩ := piece_append_lineFeed first rest behind
    rw [List.cons_append, pieces, List.map_cons, List.map_cons, hlossy, hrest, ih, List.cons_append]

theorem toNat_char_ofNat (n : Nat) : (Char.ofNat n).toNat = n ∨ (Char.ofNat n).toNat = 0 := by
  by_cases hvalid : n.isValidChar
  · rw [Char.ofNat, dif_pos hvalid]
    exact .inl rfl
  · rw [Char.ofNat, dif_neg hvalid]
    exact .inr rfl

theorem eq_ten_of_ofNat {n : Nat} (h : Char.ofNat n = '\n') : n = 10 := by
  have hn := toNat_char_ofNat n
  rw [h] at hn
  rcases hn with hn | hn
  · exact hn.symm
  · exact absurd hn (by decide)

theorem piece_suffix (first : UInt8) (rest : List UInt8) : (piece first rest).2 <:+ rest := by
  unfold piece twoBytes threeBytes fourBytes
  repeat' split
  all_goals simp [List.suffix_cons_iff]

/-- No longer form of a line feed is taken, so only the byte itself reads as one. -/
theorem eq_lineFeed_of_piece {first : UInt8} {rest : List UInt8}
    (h : (piece first rest).1.lossy = '\n') : first = 0x0a := by
  have htwo (hfirst : 0xc2 ≤ first.toNat ∧ first.toNat ≤ 0xdf) :
      (twoBytes first rest).1.lossy ≠ '\n' := by
    unfold twoBytes
    intro h
    repeat' split at h
    · cases h
    · have hvalue := eq_ten_of_ofNat h
      omega
    · cases h
  have hthree (hfirst : 0xe0 ≤ first.toNat ∧ first.toNat ≤ 0xef) :
      (threeBytes first rest).1.lossy ≠ '\n' := by
    unfold threeBytes
    intro h
    repeat' split at h
    · cases h
    · cases h
    · next hfollow _ _ _ _ _ =>
      have hvalue := eq_ten_of_ofNat h
      rw [mayFollow_iff] at hfollow
      unfold payload at hvalue
      omega
    · cases h
    · cases h
  have hfour (hfirst : 0xf0 ≤ first.toNat ∧ first.toNat ≤ 0xf4) :
      (fourBytes first rest).1.lossy ≠ '\n' := by
    unfold fourBytes
    intro h
    repeat' split at h
    · cases h
    · cases h
    · cases h
    · next hfollow _ _ _ _ _ _ _ _ =>
      have hvalue := eq_ten_of_ofNat h
      rw [mayFollow_iff] at hfollow
      unfold payload at hvalue
      omega
    · cases h
    · cases h
    · cases h
  rw [piece_eq] at h
  split at h
  · have hvalue := eq_ten_of_ofNat h
    exact UInt8.toNat_inj.mp hvalue
  split at h
  · next hfirst => exact absurd h (htwo hfirst)
  split at h
  · next hfirst => exact absurd h (hthree hfirst)
  split at h
  · next hfirst => exact absurd h (hfour hfirst)
  · cases h

theorem lineFeed_mem_of_mem_decodeLossy {bytes : List UInt8} (h : '\n' ∈ decodeLossy bytes) :
    0x0a ∈ bytes := by
  unfold decodeLossy at h
  fun_induction pieces bytes with
  | case1 => simp at h
  | case2 first rest ih =>
    rw [List.map_cons, List.mem_cons] at h
    rcases h with h | h
    · exact List.mem_cons.mpr (.inl (eq_lineFeed_of_piece h.symm).symm)
    · exact List.mem_cons_of_mem _ ((piece_suffix first rest).subset (ih h))

end LineFeeds

end TemplateViews.Utf8
