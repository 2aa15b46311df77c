import TemplateViews.Json.Numeral
import TemplateViews.Json.Text

/-! Reading JSON. Values, the items of an array and the members of an object are read
by functions that call each other; every call but one for each value takes a character
of the text, which bounds how deep the calls go. -/

namespace TemplateViews.Json

def isSpace (c : Char) : Bool := c == ' ' || c == '\n' || c == '\t' || c == '\r'

def skipSpace (cs : List Char) : List Char := cs.dropWhile isSpace

/-- The value that a word stands for, if the text goes on with the word. -/
def readWord (value : Value) : List Char → List Char → Value × List Char
  | [], rest => (value, rest)
  | _ :: _, [] => (.broken .ended .ended, [])
  | c :: word, d :: rest =>
    if c = d then readWord value word rest else (.broken .malformed .malformed, [])

mutual

def readValue : Nat → List Char → Value × List Char
  | 0, _ => (.broken .ended .ended, [])
  | fuel + 1, cs =>
    match skipSpace cs with
    | [] => (.broken .ended .ended, [])
    | c :: rest =>
      if c = 'n' then readWord .null ['u', 'l', 'l'] rest
      else if c = 't' then readWord (.bool true) ['r', 'u', 'e'] rest
      else if c = 'f' then readWord (.bool false) ['a', 'l', 's', 'e'] rest
      else if c = '"' then
        match readString rest with
        | .closed text rest => (.string text, rest)
        | .broken wanted skipped => (.broken wanted skipped, [])
      else if c = '[' then
        let (items, rest) := readItems fuel rest
        (.array items, rest)
      else if c = '{' then
        let (members, rest) := readMembers fuel rest
        (.object members, rest)
      else if c = '-' ∨ c.isDigit then
        match readNumeral (c :: rest) with
        | .ok (numeral, rest) => (.number numeral.number?, rest)
        | .error fault => (.broken fault .malformed, [])
      else (.broken .malformed .malformed, [])

def readItems : Nat → List Char → Items × List Char
  | 0, _ => (.cut .ended, [])
  | fuel + 1, cs =>
    match skipSpace cs with
    | [] => (.cut .ended, [])
    | c :: rest =>
      if c = ']' then (.close, rest)
      else
        let (value, rest) := readValue fuel (c :: rest)
        let (items, rest) := readMoreItems fuel rest
        (.item value items, rest)

def readMoreItems : Nat → List Char → Items × List Char
  | 0, _ => (.cut .ended, [])
  | fuel + 1, cs =>
    match skipSpace cs with
    | [] => (.cut .ended, [])
    | c :: rest =>
      if c = ']' then (.close, rest)
      else if c = ',' then
        match skipSpace rest with
        | [] => (.dangling .ended, [])
        | c :: rest =>
          if c = ']' then (.dangling .malformed, [])
          else
            let (value, rest) := readValue fuel (c :: rest)
            let (items, rest) := readMoreItems fuel rest
            (.item value items, rest)
      else (.cut .malformed, [])

def readMembers : Nat → List Char → Members × List Char
  | 0, _ => (.cut .ended .ended, [])
  | fuel + 1, cs =>
    match skipSpace cs with
    | [] => (.cut .ended .ended, [])
    | c :: rest =>
      if c = '}' then (.close, rest)
      else if c = '"' then readMember fuel rest
      else (.cut .malformed .malformed, [])

def readMember : Nat → List Char → Members × List Char
  | 0, _ => (.cut .ended .ended, [])
  | fuel + 1, cs =>
    match readString cs with
    | .broken wanted skipped => (.cut wanted skipped, [])
    | .closed key rest =>
      match skipSpace rest with
      | [] => (.member key (.broken .ended .ended) .close, [])
      | c :: rest =>
        if c = ':' then
          let (value, rest) := readValue fuel rest
          let (members, rest) := readMoreMembers fuel rest
          (.member key value members, rest)
        else (.member key (.broken .malformed .malformed) .close, [])

def readMoreMembers : Nat → List Char → Members × List Char
  | 0, _ => (.cut .ended .ended, [])
  | fuel + 1, cs =>
    match skipSpace cs with
    | [] => (.cut .ended .ended, [])
    | c :: rest =>
      if c = '}' then (.close, rest)
      else if c = ',' then
        match skipSpace rest with
        | [] => (.cut .ended .ended, [])
        | c :: rest =>
          if c = '"' then readMember fuel rest
          else (.cut .malformed .malformed, [])
      else (.cut .malformed .malformed, [])

end

def Document.ofText (text : String) : Document :=
  let (value, rest) := readValue (2 * text.toList.length + 2) text.toList
  ⟨value, !(skipSpace rest).isEmpty⟩

end TemplateViews.Json
