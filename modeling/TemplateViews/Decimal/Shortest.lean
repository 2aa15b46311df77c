import TemplateViews.Decimal.Double

/-! The shortest decimal text of a double: of the decimals that read back as the
double one with the fewest digits, and of these the nearest. A text is positional for
magnitudes from `1e-5` to below `1e16`; any other has an exponent with its sign. -/

namespace TemplateViews

/-- The value `coefficient * 10 ^ exponent`. -/
structure Decimal where
  coefficient : Nat
  exponent : Int
  deriving DecidableEq, Repr

namespace Decimal

def digits (d : Decimal) : List Char := Nat.toDigits 10 d.coefficient

def significant (d : Decimal) : List Char := (d.digits.reverse.dropWhile (· == '0')).reverse

/-- The power of ten of the first digit. -/
def magnitude (d : Decimal) : Int := d.exponent + d.digits.length - 1

def positional (digits : List Char) (magnitude : Int) : List Char :=
  if magnitude < 0 then
    ['0', '.'] ++ List.replicate (-magnitude - 1).toNat '0' ++ digits
  else
    let places := magnitude.toNat + 1
    let fraction := digits.drop places
    digits.take places ++ List.replicate (places - digits.length) '0' ++ ['.'] ++
      (if fraction.isEmpty then ['0'] else fraction)

def scientific (digits : List Char) (magnitude : Int) : List Char :=
  let fraction := digits.drop 1
  digits.take 1 ++ (if fraction.isEmpty then [] else '.' :: fraction) ++
    ['e', if magnitude < 0 then '-' else '+'] ++ Nat.toDigits 10 magnitude.natAbs

def chars (d : Decimal) : List Char :=
  if -5 ≤ d.magnitude ∧ d.magnitude ≤ 15 then positional d.significant d.magnitude
  else scientific d.significant d.magnitude

end Decimal

namespace Double

/-- The power of ten of the first decimal digit. -/
def magnitude (d : Double) : Int :=
  let (num, den) := d.quotient
  if den ≤ num then (Nat.toDigits 10 (num / den)).length - 1
  else -(Nat.toDigits 10 ((den - 1) / num)).length

/-- The decimal with a given last place that reads back as the double, the nearer one
if there are two. All is counted in quarters of the double's last place: those that
read back lie up to two away, but only one below a power of two, as the doubles under
it are closer; the ends count if the mantissa is even. -/
def decimalAt? (d : Double) (place : Int) : Option Decimal :=
  let step := Nat.pow 10 place.toNat * Nat.pow 2 (2 - d.exponent).toNat
  let unit := Nat.pow 2 (d.exponent - 2).toNat * Nat.pow 10 (-place).toNat
  let value := 4 * d.mantissa * unit
  let low :=
    value - (if d.mantissa = leastFull ∧ leastExponent < d.exponent then unit else 2 * unit)
  let high := value + 2 * unit
  let readsBack (n : Nat) : Bool :=
    if d.mantissa % 2 = 0 then low ≤ n * step && n * step ≤ high
    else low < n * step && n * step < high
  let below := value / step
  let nearest := roundQuotient value step
  if readsBack nearest then some ⟨nearest, place⟩
  else if readsBack below then some ⟨below, place⟩
  else if readsBack (below + 1) then some ⟨below + 1, place⟩
  else none

/-- Seventeen digits are always enough. -/
def shortest (d : Double) : Decimal :=
  ((List.range 17).findSome? fun n => d.decimalAt? (d.magnitude - (n : Nat))).getD ⟨d.mantissa, 0⟩

def text (d : Double) : String :=
  if d.mantissa = 0 then "0.0" else String.ofList d.shortest.chars

end Double

end TemplateViews
