-- SUMMARY: The shortest decimal that reads back as a given float, as digits and a power of ten.
import Cascade.Number.Exact

/-! # Shortest decimals

Among the decimals that a reader rounds back to a given float, the ones with
the fewest digits are the shortest, and of those the nearest to the float is
chosen. The reals that round to a float form an interval around it; its ends
belong to it exactly if the float's significand is even.

For each number of digits from one to seventeen only two decimals can be
meant, the neighbours of the float on the grid of that many digits, and
seventeen digits always suffice. -/

namespace Cascade

/-- A decimal `digits * 10 ^ exponent`. -/
structure Decimal where
  digits : Nat
  exponent : Int
  deriving DecidableEq, Repr

namespace Decimal

/-- The number of decimal digits of a positive number. -/
def width (n : Nat) : Nat := (Nat.toDigits 10 n).length

/-- The exponent of the leading decimal digit of a positive fraction. -/
def leadingExponent (num den : Nat) : Int :=
  if den ≤ num then (width (num / den) : Int) - 1
  else
    let w := width (den / num)
    if den ≤ num * Nat.pow 10 (w - 1) then -((w : Int) - 1) else -(w : Int)

/-- The interval of reals that round to a positive float, as numerators over
    one denominator: the lower end, the float, the upper end. The gap below a
    power of two is half the gap above it. -/
structure Interval where
  low : Nat
  mid : Nat
  high : Nat
  den : Nat
  closed : Bool

def Interval.around (m : Nat) (e : Int) : Interval :=
  let below := if m = Nat.pow 2 52 && e ≠ -1074 then 1 else 2
  let up := Nat.pow 2 (e - 2).toNat
  { low := (4 * m - below) * up
    mid := 4 * m * up
    high := (4 * m + 2) * up
    den := Nat.pow 2 (2 - e).toNat
    closed := m % 2 = 0 }

/-- Whether `d * 10 ^ p` lies in the interval. -/
def Interval.holds (i : Interval) (d : Nat) (p : Int) : Bool :=
  let x := d * Nat.pow 10 p.toNat * i.den
  let unit := Nat.pow 10 (-p).toNat
  if i.closed then i.low * unit ≤ x && x ≤ i.high * unit
  else i.low * unit < x && x < i.high * unit

/-- The decimal of `count` digits that lies in the interval and is nearest to
    its middle, the even one of two equally near. -/
def Interval.pick? (i : Interval) (count : Nat) : Option Decimal :=
  let p := leadingExponent i.mid i.den - (count : Int) + 1
  let unit := Nat.pow 10 p.toNat * i.den
  let x := i.mid * Nat.pow 10 (-p).toNat
  let d := x / unit
  let down := i.holds d p
  let up := i.holds (d + 1) p
  let twice := 2 * (x % unit)
  if down && up then
    let upward := unit < twice || (twice = unit && d % 2 = 1)
    some ⟨if upward then d + 1 else d, p⟩
  else if down then some ⟨d, p⟩
  else if up then some ⟨d + 1, p⟩
  else none

/-- A decimal without the zeros at its end. -/
def trimZeros : Nat → Decimal → Decimal
  | 0, d => d
  | fuel + 1, d =>
    if d.digits % 10 = 0 && d.digits ≠ 0 then
      trimZeros fuel ⟨d.digits / 10, d.exponent + 1⟩
    else d

/-- The shortest decimal of a positive finite float. -/
def shortest (x : Float) : Decimal :=
  let (m, e) := Exact.magnitude x
  let i := Interval.around m e
  let d := ((List.range 17).findSome? fun k => i.pick? (k + 1)).getD ⟨0, 0⟩
  trimZeros 17 d

end Decimal

end Cascade
