import TemplateViews.Json.Value

/-! Strings of JSON. A string is read as characters and sixteen-bit units; units
that form a surrogate pair stand for one character, and half a pair for none. -/

namespace TemplateViews.Json

/-- An element of a string: a character, or a unit written with four digits. -/
inductive Element
  | char (c : Char)
  | unit (n : Nat)
  deriving DecidableEq, Repr

def isHighSurrogate (n : Nat) : Bool := 0xd800 ≤ n && n ≤ 0xdbff

def isLowSurrogate (n : Nat) : Bool := 0xdc00 ≤ n && n ≤ 0xdfff

/-- The characters of a string, and whether it ends where the second half of a pair
should follow; none if half a pair stands alone before that. -/
def pairUnits : List Element → Option (List Char × Bool)
  | [] => some ([], false)
  | .char c :: rest => (pairUnits rest).map fun (cs, half) => (c :: cs, half)
  | .unit n :: rest =>
    if isLowSurrogate n then none
    else if isHighSurrogate n then
      match rest with
      | [] => some ([], true)
      | .char _ :: _ => none
      | .unit m :: rest =>
        if isLowSurrogate m then
          (pairUnits rest).map fun (cs, half) =>
            (Char.ofNat (0x10000 + (n - 0xd800) * 0x400 + (m - 0xdc00)) :: cs, half)
        else none
    else (pairUnits rest).map fun (cs, half) => (Char.ofNat n :: cs, half)

def hexDigit? (c : Char) : Option Nat :=
  if c.isDigit then some (c.toNat - '0'.toNat)
  else if 'a' ≤ c ∧ c ≤ 'f' then some (c.toNat - 'a'.toNat + 10)
  else if 'A' ≤ c ∧ c ≤ 'F' then some (c.toNat - 'A'.toNat + 10)
  else none

def isShort (cs : List Char) : Bool := (cs.take 4).foldl (fun size c => size + c.utf8Size) 0 < 4

/-- The unit that four digits stand for. -/
def readUnit (cs : List Char) : Except Fault (Nat × List Char) :=
  if isShort cs then .error .ended
  else
    match cs with
    | a :: b :: c :: d :: rest =>
      match hexDigit? a, hexDigit? b, hexDigit? c, hexDigit? d with
      | some a, some b, some c, some d => .ok (((a * 16 + b) * 16 + c) * 16 + d, rest)
      | _, _, _, _ => .error .malformed
    | _ => .error .malformed

/-- What a letter behind a backslash stands for, `u` apart. -/
def escape? : Char → Option Char
  | '"' => some '"'
  | '\\' => some '\\'
  | '/' => some '/'
  | 'b' => some '\x08'
  | 'f' => some '\x0c'
  | 'n' => some '\n'
  | 'r' => some '\r'
  | 't' => some '\t'
  | _ => none

/-- The element a text within a string starts with, and the text behind it; none at
the closing quote. -/
def readElement : List Char → Except Fault (Option (Element × List Char))
  | [] => .error .ended
  | c :: rest =>
    if c = '"' then .ok none
    else if c = '\\' then
      match rest with
      | [] => .error .ended
      | e :: rest =>
        if e = 'u' then (readUnit rest).map fun (n, rest) => some (.unit n, rest)
        else
          match escape? e with
          | some c => .ok (some (.char c, rest))
          | none => .error .malformed
    else if c.toNat < 0x20 then .error .malformed
    else .ok (some (.char c, rest))

theorem length_readUnit {cs rest : List Char} {n : Nat} (h : readUnit cs = .ok (n, rest)) :
    rest.length < cs.length := by
  unfold readUnit at h
  split at h
  · cases h
  · split at h
    · split at h
      · obtain ⟨-, rfl⟩ := by simpa using h
        simp only [List.length_cons]
        omega
      · cases h
    · cases h

theorem length_readElement {cs rest : List Char} {e : Element}
    (h : readElement cs = .ok (some (e, rest))) : rest.length < cs.length := by
  unfold readElement at h
  split at h
  · cases h
  · next c cs =>
    split at h
    · cases h
    · split at h
      · split at h
        · cases h
        · next d cs =>
          split at h
          · cases hu : readUnit cs with
            | error f => simp [hu, Except.map] at h
            | ok read =>
              obtain ⟨-, rfl⟩ : Element.unit read.1 = e ∧ read.2 = rest := by
                simpa [hu, Except.map] using h
              have := length_readUnit hu
              simp only [List.length_cons]
              omega
          · split at h
            · obtain ⟨-, rfl⟩ := by simpa using h
              simp only [List.length_cons]
              omega
            · cases h
      · split at h
        · cases h
        · obtain ⟨-, rfl⟩ := by simpa using h
          simp

/-- The elements up to the closing quote, and the text behind it or the fault. -/
def readElements (cs : List Char) : List Element × Except Fault (List Char) :=
  match _h : readElement cs with
  | .error fault => ([], .error fault)
  | .ok none => ([], .ok cs.tail)
  | .ok (some (element, rest)) => (element :: (readElements rest).1, (readElements rest).2)
termination_by cs.length
decreasing_by all_goals exact length_readElement _h

inductive StringRead
  | closed (text : Option String) (rest : List Char)
  /-- The string has no end; a half of a pair in it is met first by a reader who wants it. -/
  | broken (wanted skipped : Fault)

def readString (cs : List Char) : StringRead :=
  match readElements cs with
  | (elements, .ok rest) =>
    match pairUnits elements with
    | some (text, false) => .closed (some (String.ofList text)) rest
    | _ => .closed none rest
  | (elements, .error fault) =>
    .broken (if (pairUnits elements).isSome then fault else .malformed) fault

end TemplateViews.Json
