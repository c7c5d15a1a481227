/-!
# Magnitudes in binary floating point

A magnitude is a natural number times a power of two, as a 64-bit floating
point word holds it: at most 53 bits, and an exponent between `-1074` and
`971`.  Every operation here computes an exact ratio of natural numbers and
rounds it once, to the nearest magnitude and to the even one of two.
-/

namespace ScriptAssist
namespace Number

/-- The magnitude `mantissa * 2 ^ exponent`. -/
structure Magnitude where
  mantissa : Nat
  exponent : Int
  deriving DecidableEq, Repr

-- The natural number nearest to a quotient, the even one of two.
def roundQuotient (numerator denominator : Nat) : Nat :=
  let quotient := numerator / denominator
  let twice := 2 * (numerator % denominator)
  if twice < denominator ∨ (twice = denominator ∧ quotient % 2 = 0) then
    quotient
  else
    quotient + 1

namespace Magnitude

def minExponent : Int := -1074

def maxExponent : Int := 971

def zero : Magnitude :=
  ⟨0, minExponent⟩

/-- The magnitude nearest to `numerator / denominator * 2 ^ scale`, or nothing
if that lies beyond the largest one. -/
def ofRatio? (numerator denominator : Nat) (scale : Int) : Option Magnitude :=
  if numerator = 0 then
    some zero
  else
    let top := numerator <<< scale.toNat
    let bottom := denominator <<< (-scale).toNat
    let guess : Int := (top.log2 : Int) - (bottom.log2 : Int)
    let reaches := bottom <<< guess.toNat ≤ top <<< (-guess).toNat
    let exponent := max minExponent (if reaches then guess - 52 else guess - 53)
    let mantissa :=
      roundQuotient (top <<< (-exponent).toNat) (bottom <<< exponent.toNat)
    let rounded : Magnitude :=
      if mantissa = 1 <<< 53 then ⟨1 <<< 52, exponent + 1⟩ else ⟨mantissa, exponent⟩
    if maxExponent < rounded.exponent then none else some rounded

def ofNat? (n : Nat) : Option Magnitude :=
  ofRatio? n 1 0

def mul? (left right : Magnitude) : Option Magnitude :=
  ofRatio? (left.mantissa * right.mantissa) 1 (left.exponent + right.exponent)

def div? (left right : Magnitude) : Option Magnitude :=
  ofRatio? left.mantissa right.mantissa (left.exponent - right.exponent)

/-!
# Decimal scaling

A significand and a decimal exponent are combined with the magnitude nearest
to a power of ten, of which the largest is `10 ^ 308`.
-/

def maxPowerOfTen : Nat := 308

def scaleTen? (m : Magnitude) (exponent : Int) : Option Magnitude := do
  if m.mantissa = 0 then
    return m
  let places := exponent.natAbs
  if 0 ≤ exponent then
    if places ≤ maxPowerOfTen then
      m.mul? (← ofNat? (Nat.pow 10 places))
    else
      none
  else if places ≤ maxPowerOfTen then
    m.div? (← ofNat? (Nat.pow 10 places))
  else if places ≤ 2 * maxPowerOfTen then
    let step ← m.div? (← ofNat? (Nat.pow 10 maxPowerOfTen))
    step.div? (← ofNat? (Nat.pow 10 (places - maxPowerOfTen)))
  else
    return zero

end Magnitude
end Number
end ScriptAssist
