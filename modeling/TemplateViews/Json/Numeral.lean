import TemplateViews.Json.Value

/-! Numerals of JSON. The digits that fit into a word of 64 bits make up the
significand; digits of the whole part that do not fit count as zeros, and those of the
fraction are dropped. -/

namespace TemplateViews.Json

structure Numeral where
  negative : Bool
  whole : List Nat
  fraction : Option (List Nat) := none
  exponent : Option Int := none
  deriving DecidableEq, Repr

def wordLimit : Nat := Nat.pow 2 64

/-- Puts digits behind a significand as long as it fits into a word; the second number
counts them. -/
def takeDigits (significand : Nat) : List Nat → Nat × Nat
  | [] => (significand, 0)
  | digit :: rest =>
    if significand * 10 + digit < wordLimit then
      let taken := takeDigits (significand * 10 + digit) rest
      (taken.1, taken.2 + 1)
    else (significand, 0)

def scaled (negative : Bool) (significand : Nat) (exponent : Int) : Option Number :=
  match Double.ofQuotient significand 1 with
  | none => none
  | some d => (d.scaleByTen exponent).map (.float negative)

/-- None if the numeral lies outside of the doubles. A negative integer has to fit into
a signed word, and zero has a sign only as a float. -/
def Numeral.number? (n : Numeral) : Option Number :=
  let whole := takeDigits 0 n.whole
  let dropped : Int := n.whole.length - whole.2
  match n.fraction, n.exponent with
  | none, none =>
    if dropped ≠ 0 then scaled n.negative whole.1 dropped
    else if !n.negative then some (.integer whole.1)
    else if whole.1 = 0 ∨ wordLimit < 2 * whole.1 then scaled true whole.1 0
    else some (.integer (-whole.1))
  | fraction, exponent =>
    let all := takeDigits whole.1 (fraction.getD [])
    scaled n.negative all.1 (dropped - all.2 + exponent.getD 0)

def digitValue (c : Char) : Nat := c.toNat - '0'.toNat

def readDigits (cs : List Char) : List Nat × List Char :=
  ((cs.takeWhile Char.isDigit).map digitValue, cs.dropWhile Char.isDigit)

/-- A numeral that breaks off, or that goes on with something else than a digit. Only
a reader who wants the number tells the two apart. -/
def digitFault : List Char → Fault
  | [] => .ended
  | _ => .malformed

/-- Digits without a needless zero in front. -/
def readWhole (cs : List Char) : Except Fault (List Nat × List Char) :=
  match cs with
  | '0' :: c :: rest => if c.isDigit then .error .malformed else .ok ([0], c :: rest)
  | _ =>
    let read := readDigits cs
    if read.1.isEmpty then .error (digitFault cs) else .ok read

def readFraction (cs : List Char) : Except Fault (Option (List Nat) × List Char) :=
  match cs with
  | '.' :: rest =>
    let read := readDigits rest
    if read.1.isEmpty then .error (digitFault rest) else .ok (some read.1, read.2)
  | _ => .ok (none, cs)

def readSign (cs : List Char) : Bool × List Char :=
  match cs with
  | '+' :: rest => (false, rest)
  | '-' :: rest => (true, rest)
  | _ => (false, cs)

def digitsValue (digits : List Nat) : Nat := digits.foldl (fun n digit => n * 10 + digit) 0

def readExponent (cs : List Char) : Except Fault (Option Int × List Char) :=
  match cs with
  | c :: rest =>
    if c = 'e' ∨ c = 'E' then
      let sign := readSign rest
      let read := readDigits sign.2
      if read.1.isEmpty then .error (digitFault sign.2)
      else
        let value : Int := digitsValue read.1
        .ok (some (if sign.1 then -value else value), read.2)
    else .ok (none, cs)
  | [] => .ok (none, [])

def readNumeral (cs : List Char) : Except Fault (Numeral × List Char) :=
  let unsigned := match cs with
    | '-' :: rest => rest
    | _ => cs
  match readWhole unsigned with
  | .error fault => .error fault
  | .ok (whole, rest) =>
    match readFraction rest with
    | .error fault => .error fault
    | .ok (fraction, rest) =>
      match readExponent rest with
      | .error fault => .error fault
      | .ok (exponent, rest) => .ok (⟨cs.head? == some '-', whole, fraction, exponent⟩, rest)

end TemplateViews.Json
