/-! Texts as bytes in UTF-8. Bytes are cut from the left into characters and into
the shortest runs that begin no character. They decode if every piece is a
character; a lossy reading puts U+FFFD in the place of each other piece. -/

namespace TemplateViews.Utf8

def encode (cs : List Char) : List UInt8 := cs.flatMap String.utf8EncodeChar

def isContinuation (b : UInt8) : Bool := 0x80 ≤ b && b ≤ 0xbf

/-- Which bytes may follow the first byte of a character of three or four bytes: no
character has a shorter form, none is a surrogate and none lies above U+10FFFF. -/
def mayFollow (first second : UInt8) : Bool :=
  if first == 0xe0 then 0xa0 ≤ second && second ≤ 0xbf
  else if first == 0xed then 0x80 ≤ second && second ≤ 0x9f
  else if first == 0xf0 then 0x90 ≤ second && second ≤ 0xbf
  else if first == 0xf4 then 0x80 ≤ second && second ≤ 0x8f
  else isContinuation second

inductive Piece
  | char (c : Char)
  | malformed (length : Nat)
  /-- The bytes end within a character. -/
  | truncated
  deriving DecidableEq, Repr

def payload (b : UInt8) : Nat := b.toNat % 64

def twoBytes (first : UInt8) : List UInt8 → Piece × List UInt8
  | [] => (.truncated, [])
  | b :: rest =>
    if isContinuation b then (.char (Char.ofNat (first.toNat % 32 * 64 + payload b)), rest)
    else (.malformed 1, b :: rest)

def threeBytes (first : UInt8) : List UInt8 → Piece × List UInt8
  | [] => (.truncated, [])
  | b :: rest =>
    if mayFollow first b then
      match rest with
      | [] => (.truncated, [])
      | c :: rest =>
        if isContinuation c then
          (.char (Char.ofNat ((first.toNat % 16 * 64 + payload b) * 64 + payload c)), rest)
        else (.malformed 2, c :: rest)
    else (.malformed 1, b :: rest)

def fourBytes (first : UInt8) : List UInt8 → Piece × List UInt8
  | [] => (.truncated, [])
  | b :: rest =>
    if mayFollow first b then
      match rest with
      | [] => (.truncated, [])
      | c :: rest =>
        if isContinuation c then
          match rest with
          | [] => (.truncated, [])
          | d :: rest =>
            if isContinuation d then
              (.char (Char.ofNat
                (((first.toNat % 8 * 64 + payload b) * 64 + payload c) * 64 + payload d)), rest)
            else (.malformed 3, d :: rest)
        else (.malformed 2, c :: rest)
    else (.malformed 1, b :: rest)

def piece (first : UInt8) (rest : List UInt8) : Piece × List UInt8 :=
  if first < 0x80 then (.char (Char.ofNat first.toNat), rest)
  else if 0xc2 ≤ first && first ≤ 0xdf then twoBytes first rest
  else if 0xe0 ≤ first && first ≤ 0xef then threeBytes first rest
  else if 0xf0 ≤ first && first ≤ 0xf4 then fourBytes first rest
  else (.malformed 1, rest)

theorem length_piece_le (first : UInt8) (rest : List UInt8) :
    (piece first rest).2.length ≤ rest.length := by
  unfold piece twoBytes threeBytes fourBytes
  repeat' split
  all_goals simp only [List.length_cons, List.length_nil]; omega

def pieces : List UInt8 → List Piece
  | [] => []
  | first :: rest => (piece first rest).1 :: pieces (piece first rest).2
termination_by bytes => bytes.length
decreasing_by
  have := length_piece_le first rest
  simp only [List.length_cons]
  omega

/-- Where bytes stop being UTF-8: `length` bytes at `index` begin no character, or,
with no length, the bytes end within the character at `index`. -/
structure Error where
  index : Nat
  length : Option Nat
  deriving DecidableEq, Repr

def Error.message (e : Error) : String :=
  match e.length with
  | some n => s!"invalid utf-8 sequence of {n} bytes from index {e.index}"
  | none => s!"incomplete utf-8 byte sequence from index {e.index}"

def charsFrom (index : Nat) : List Piece → Except Error (List Char)
  | [] => .ok []
  | .char c :: rest => (charsFrom (index + c.utf8Size) rest).map (c :: ·)
  | .malformed n :: _ => .error ⟨index, some n⟩
  | .truncated :: _ => .error ⟨index, none⟩

def decode (bytes : List UInt8) : Except Error (List Char) := charsFrom 0 (pieces bytes)

def Piece.lossy : Piece → Char
  | .char c => c
  | .malformed _ => '\ufffd'
  | .truncated => '\ufffd'

def decodeLossy (bytes : List UInt8) : List Char := (pieces bytes).map Piece.lossy

end TemplateViews.Utf8
