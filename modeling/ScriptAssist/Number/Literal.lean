import ScriptAssist.Number.Shortest

/-!
# Number literals

A literal is an integer when it has neither fraction nor exponent and fits in
64 bits, signed or unsigned; every other literal is a floating point number,
and so is `-0`, which no integer can express.
-/

namespace ScriptAssist

inductive Number where
  | integer (value : Int)
  | float (negative : Bool) (magnitude : Number.Magnitude)
  deriving DecidableEq, Repr

namespace Number

structure Literal where
  negative : Bool
  whole : List Char
  fraction : List Char
  -- Zero when no exponent is written.
  exponent : Int
  -- Whether a fraction or an exponent is written.
  scientific : Bool
  deriving DecidableEq, Repr

/-- Extends a number by decimal digits as long as it stays below `2 ^ 64`, and
returns it with the digits that were left. -/
def gather : Nat → List Char → Nat × List Char
  | value, [] => (value, [])
  | value, c :: rest =>
      let next := 10 * value + (c.toNat - '0'.toNat)
      if next < 0x10000000000000000 then gather next rest else (value, c :: rest)

namespace Literal

def spanDigits (chars : List Char) : List Char × List Char :=
  (chars.takeWhile Char.isDigit, chars.dropWhile Char.isDigit)

def readExponent? : List Char → Option (Option Int)
  | [] => some none
  | mark :: rest => do
      guard (mark = 'e' ∨ mark = 'E')
      let (negative, digits) :=
        match rest with
        | '-' :: digits => (true, digits)
        | '+' :: digits => (false, digits)
        | digits => (false, digits)
      guard (!digits.isEmpty && digits.all Char.isDigit)
      let value : Int :=
        digits.foldl (fun value c => 10 * value + (c.toNat - '0'.toNat)) 0
      return some (if negative then -value else value)

/-- Reads a literal that takes up a whole text: a sign, digits without a needless
zero, then a fraction and an exponent if they are written. -/
def read? (chars : List Char) : Option Literal := do
  let (negative, body) :=
    match chars with
    | '-' :: body => (true, body)
    | body => (false, body)
  let (whole, rest) := spanDigits body
  guard (!whole.isEmpty && (whole.length = 1 || whole.head? ≠ some '0'))
  let (fraction, rest) ←
    match rest with
    | '.' :: rest =>
        let (fraction, rest) := spanDigits rest
        if fraction.isEmpty then none else some (fraction, rest)
    | rest => some ([], rest)
  let exponent ← readExponent? rest
  return {
    negative, whole, fraction
    exponent := exponent.getD 0
    scientific := !fraction.isEmpty || exponent.isSome }

def magnitude? (literal : Literal) : Option Magnitude := do
  -- Digits beyond 64 bits only count as places.
  let (whole, wholeLeft) := gather 0 literal.whole
  let (significand, fractionLeft) := gather whole literal.fraction
  let places : Int := literal.fraction.length - fractionLeft.length
  let m ← Magnitude.ofNat? significand
  m.scaleTen? (wholeLeft.length - places + literal.exponent)

def number? (literal : Literal) : Option Number := do
  let (whole, left) := gather 0 literal.whole
  let isWhole := !literal.scientific && left.isEmpty
  if isWhole && !literal.negative then
    return .integer whole
  else if isWhole && 0 < whole && whole ≤ 0x8000000000000000 then
    return .integer (-whole)
  else
    return .float literal.negative (← literal.magnitude?)

end Literal

def text : Number → String
  | .integer value => toString value
  | .float negative magnitude =>
      (if negative then "-" else "") ++ magnitude.shortest.text

end Number
end ScriptAssist
