-- SUMMARY: How numbers are written: the layout record of float texts, and the text of an integer and of a float.
import Cascade.Number.Shortest

/-! # Number texts

An integer is written in full. A float is written with its shortest digits,
either around a point or, far from one, with a power of ten; the layout record
holds every choice of that format. -/

namespace Cascade

/-- The choices of a float format. -/
structure FloatLayout where
  /-- Powers of ten of the leading digit that are written around a point. -/
  leastPositional : Int
  mostPositional : Int
  /-- The text after a number without a fraction. -/
  noFraction : String
  /-- The fewest digits of a written power of ten. -/
  exponentWidth : Nat
  nan : String
  infinity : String

namespace FloatLayout

/-- The format of facts and messages: a point from `0.0001` to below `1e+16`,
    a fraction always, and a signed power of at least two digits. -/
def standard : FloatLayout where
  leastPositional := -4
  mostPositional := 15
  noFraction := ".0"
  exponentWidth := 2
  nan := "nan"
  infinity := "inf"

def zeros (n : Nat) : String := String.ofList (List.replicate n '0')

/-- The digits with a point after the first `point` of them. -/
def positional (f : FloatLayout) (digits : String) (point : Int) : String :=
  if point ≤ 0 then "0." ++ zeros (-point).toNat ++ digits
  else
    let n := point.toNat
    let ds := digits.toList
    if ds.length ≤ n then digits ++ zeros (n - ds.length) ++ f.noFraction
    else String.ofList (ds.take n) ++ "." ++ String.ofList (ds.drop n)

/-- The digits with a point after the first of them, and a power of ten. -/
def scientific (f : FloatLayout) (digits : String) (power : Int) : String :=
  let ds := digits.toList
  let fraction := if ds.length ≤ 1 then "" else "." ++ String.ofList (ds.drop 1)
  let exponent := toString power.natAbs
  String.ofList (ds.take 1) ++ fraction ++ "e" ++ (if power < 0 then "-" else "+")
    ++ zeros (f.exponentWidth - exponent.length) ++ exponent

def render (f : FloatLayout) (x : Float) : String :=
  if x.isNaN then f.nan
  else
    let sign := if Exact.signBit x then "-" else ""
    if x.isInf then sign ++ f.infinity
    else if x == 0.0 then sign ++ "0" ++ f.noFraction
    else
      let d := Decimal.shortest x
      let digits := toString d.digits
      let power := d.exponent + digits.length - 1
      sign ++
        if f.leastPositional ≤ power && power ≤ f.mostPositional then
          f.positional digits (power + 1)
        else f.scientific digits power

end FloatLayout

/-- The text of a float in facts and messages. -/
def floatText (x : Float) : String := FloatLayout.standard.render x

def integerText (n : Int) : String :=
  if n < 0 then "-" ++ toString n.natAbs else toString n.natAbs

end Cascade
