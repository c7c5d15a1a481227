import ScriptAssist.Number.Binary

/-!
# Shortest decimals

Of all decimals that read back as a given magnitude, the shortest is the one
on the coarsest decimal grid; of two points on that grid, the nearer one, and
of two equally near ones the even one.
-/

namespace ScriptAssist
namespace Number

structure Decimal where
  digits : Nat
  exponent : Int
  deriving DecidableEq, Repr

namespace Magnitude

/-- The decimals on the grid of `10 ^ exponent` that round to a magnitude,
reduced to the nearest one.

Everything is counted in quarters of the last binary place, so that the ends
of the interval of numbers that round to `m` are whole: the upper end lies two
quarters above, the lower end two below, or one below a power of two.  The
ends themselves round to `m` if its mantissa is even. -/
def onGrid? (m : Magnitude) (exponent : Int) : Option Decimal :=
  let quarter := m.exponent - 2
  let unit := Nat.pow 10 (-exponent).toNat <<< quarter.toNat
  let grid := Nat.pow 10 exponent.toNat <<< (-quarter).toNat
  let value := 4 * m.mantissa * unit
  let below :=
    if m.mantissa = 1 <<< 52 ∧ minExponent < m.exponent then unit else 2 * unit
  let low := value - below
  let high := value + 2 * unit
  let inside (point : Nat) : Bool :=
    if m.mantissa % 2 = 0 then low ≤ point && point ≤ high
    else low < point && point < high
  let floor := value / grid
  let nearest := roundQuotient value grid
  let other := if nearest = floor then floor + 1 else floor
  if inside (nearest * grid) then some ⟨nearest, exponent⟩
  else if inside (other * grid) then some ⟨other, exponent⟩
  else none

def shortestFrom (m : Magnitude) : Nat → Int → Decimal
  | 0, _ => ⟨0, 0⟩
  | count + 1, exponent =>
      match m.onGrid? exponent with
      | some decimal => decimal
      | none => shortestFrom m count (exponent - 1)

/-- The shortest decimal that reads back as a magnitude. The coarsest grid is
above the largest magnitude and the finest one below the smallest. -/
def shortest (m : Magnitude) : Decimal :=
  if m.mantissa = 0 then ⟨0, 0⟩ else shortestFrom m 660 309

end Magnitude

/-!
# Notation

A decimal is written with a point as long as its leading digit lies between
`10 ^ (-5)` and `10 ^ 15`, and with a signed exponent beyond that.
-/

namespace Decimal

def exponentText (exponent : Int) : List Char :=
  (if exponent < 0 then '-' else '+') :: Nat.toDigits 10 exponent.natAbs

def text (d : Decimal) : String :=
  if d.digits = 0 then
    "0.0"
  else
    let digits := Nat.toDigits 10 d.digits
    let point : Int := digits.length + d.exponent
    let zeros (n : Nat) := List.replicate n '0'
    let chars :=
      if 0 ≤ d.exponent ∧ point ≤ 16 then
        digits ++ zeros d.exponent.toNat ++ ['.', '0']
      else if 0 < point ∧ point ≤ 16 then
        digits.take point.toNat ++ '.' :: digits.drop point.toNat
      else if -5 < point ∧ point ≤ 0 then
        '0' :: '.' :: zeros (-point).toNat ++ digits
      else
        let fraction := digits.drop 1
        digits.take 1 ++ (if fraction.isEmpty then [] else '.' :: fraction)
          ++ 'e' :: exponentText (point - 1)
    String.ofList chars

end Decimal
end Number
end ScriptAssist
