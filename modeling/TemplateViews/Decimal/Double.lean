/-! Doubles as exact values. A double that is not negative is a natural number times a
power of two; an operation computes its exact result and rounds that once, to the
nearest double and between two of them to the one with the even mantissa. -/

namespace TemplateViews

/-- The value `mantissa * 2 ^ exponent`. -/
structure Double where
  mantissa : Nat
  exponent : Int
  deriving DecidableEq, Repr

/-- The nearest natural number, of two the even one. -/
def roundQuotient (num den : Nat) : Nat :=
  let q := num / den
  let r := num % den
  if 2 * r < den then q
  else if den < 2 * r then q + 1
  else if q % 2 = 0 then q else q + 1

/-- The quotient of `num` and `den * base ^ power` as numerator and denominator. -/
def scaleQuotient (base num den : Nat) (power : Int) : Nat × Nat :=
  (num * Nat.pow base (-power).toNat, den * Nat.pow base power.toNat)

namespace Double

def zero : Double := ⟨0, 0⟩

/-- The least mantissa of 53 bits. -/
def leastFull : Nat := 4503599627370496

def leastExponent : Int := -1074

def greatestExponent : Int := 971

/-- The exponent at which a quotient has a mantissa of 53 bits, or the least one. -/
def exponentOf (num den : Nat) : Int :=
  let guess : Int := (num.log2 : Int) - den.log2 - 52
  let scaled := scaleQuotient 2 num den guess
  let exponent := if scaled.1 < leastFull * scaled.2 then guess - 1 else guess
  if exponent < leastExponent then leastExponent else exponent

/-- The double nearest to a quotient; none if it lies above the largest one. -/
def ofQuotient (num den : Nat) : Option Double :=
  if num = 0 then some zero
  else
    let exponent := exponentOf num den
    let scaled := scaleQuotient 2 num den exponent
    let mantissa := roundQuotient scaled.1 scaled.2
    let rounded : Double :=
      if mantissa = 2 * leastFull then ⟨leastFull, exponent + 1⟩ else ⟨mantissa, exponent⟩
    if greatestExponent < rounded.exponent then none else some rounded

def quotient (d : Double) : Nat × Nat :=
  (d.mantissa * Nat.pow 2 d.exponent.toNat, Nat.pow 2 (-d.exponent).toNat)

def mul (a b : Double) : Option Double :=
  ofQuotient (a.quotient.1 * b.quotient.1) (a.quotient.2 * b.quotient.2)

def div (a b : Double) : Option Double :=
  ofQuotient (a.quotient.1 * b.quotient.2) (a.quotient.2 * b.quotient.1)

def tenTo (exponent : Nat) : Option Double := ofQuotient (Nat.pow 10 exponent) 1

/-- The largest power of ten that is applied in one step. -/
def maxPower : Nat := 308

/-- Divides by a power of ten, in steps that each round. -/
def shrinkByTen (d : Double) (exponent : Nat) : Option Double :=
  if exponent ≤ maxPower then (tenTo exponent).bind d.div
  else if d.mantissa = 0 then some d
  else (tenTo maxPower).bind fun power =>
    (d.div power).bind fun d => d.shrinkByTen (exponent - maxPower)
termination_by exponent
decreasing_by
  simp only [maxPower] at *
  omega

/-- Multiplies by a power of ten; none if the result lies above the largest double. -/
def scaleByTen (d : Double) (exponent : Int) : Option Double :=
  if exponent < 0 then d.shrinkByTen exponent.natAbs
  else if exponent.natAbs ≤ maxPower then (tenTo exponent.natAbs).bind d.mul
  else if d.mantissa = 0 then some d
  else none

end Double

end TemplateViews
