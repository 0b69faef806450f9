-- SUMMARY: The exact value of a 64-bit float as a signed integer times a power of two, with exact comparison, floored remainder and conversion to an integer.

/-! # Exact values of floats

A finite 64-bit float stands for a whole number times a power of two. Integers
and floats are compared through these exact values, so no conversion rounds
on the way; a value that is not a number compares with nothing. -/

namespace Cascade

/-- What a number stands for, before any rounding. -/
inductive Exact where
  | nan
  | infinite (negative : Bool)
  | finite (significand exponent : Int)
  deriving DecidableEq, Repr

namespace Exact

/-! ## Reading the bits of a float -/

def signBit (x : Float) : Bool := Nat.pow 2 63 ≤ x.toBits.toNat

/-- The significand and the power of two of a finite float, without its sign. -/
def magnitude (x : Float) : Nat × Int :=
  let bits : Nat := x.toBits.toNat
  let fraction : Nat := bits % Nat.pow 2 52
  let field : Nat := bits / Nat.pow 2 52 % Nat.pow 2 11
  if field = 0 then (fraction, -1074) else (fraction + Nat.pow 2 52, (field : Int) - 1075)

def ofFloat (x : Float) : Exact :=
  if x.isNaN then .nan
  else if x.isInf then .infinite (signBit x)
  else
    let (m, e) := magnitude x
    .finite (if signBit x then -(m : Int) else m) e

def ofInt (n : Int) : Exact := .finite n 0

/-! ## Comparison -/

/-- A finite value as a multiple of `2 ^ floor`, for a `floor` not above its
    own power. -/
def scaled (significand exponent floor : Int) : Int :=
  significand * Nat.pow 2 (exponent - floor).toNat

/-- How two values compare; `none` if one of them is not a number. -/
def compare? : Exact → Exact → Option Ordering
  | .nan, _ | _, .nan => none
  | .infinite n, .infinite m =>
    some (if n = m then .eq else if n then .lt else .gt)
  | .infinite n, .finite .. => some (if n then .lt else .gt)
  | .finite .., .infinite n => some (if n then .gt else .lt)
  | .finite a p, .finite b q =>
    let floor := min p q
    some (compare (scaled a p floor) (scaled b q floor))

/-! ## Whole numbers -/

/-- The whole part of a finite value, its fraction cut off. -/
def truncated? : Exact → Option Int
  | .finite m e =>
    some (if 0 ≤ e then m * Nat.pow 2 e.toNat else Int.tdiv m (Nat.pow 2 (-e).toNat))
  | _ => none

/-- The integer that a value is, if it is one. -/
def whole? (v : Exact) : Option Int :=
  match v, v.truncated? with
  | .finite m e, some n => if 0 ≤ e || n * Nat.pow 2 (-e).toNat = m then some n else none
  | _, _ => none

end Exact

/-! ## Floats from exact values -/

/-- The integer rounded to the nearest float, ties to even; `none` if it is
    too large for any finite one. -/
def floatOfInt? (n : Int) : Option Float :=
  let x := Float.ofInt n
  if x.isInf then none else some x

/-- The float nearest to `digits * 10 ^ exponent`. Far outside the range of
    floats the size of the number decides alone. -/
def floatOfDecimal (digits : Nat) (exponent : Int) : Float :=
  if digits = 0 then 0.0
  else if 400 < exponent then 1.0 / 0.0
  else if exponent + (Nat.toDigits 10 digits).length < -400 then 0.0
  else Float.ofScientific digits (exponent < 0) exponent.natAbs

/-- The power `2 ^ e` as a float, for `-1074 ≤ e ≤ 1023`. -/
def powerOfTwo (e : Int) : Float :=
  if e < -1022 then Float.ofBits (UInt64.ofNat (Nat.pow 2 (e + 1074).toNat))
  else Float.ofBits (UInt64.ofNat ((e + 1023).toNat * Nat.pow 2 52))

/-- The remainder of a float division whose quotient is rounded toward
    negative infinity, so that it has the sign of the divisor. The exact
    remainder of the magnitudes is a float, and the one addition that may
    follow rounds. -/
def flooredRemainder (x y : Float) : Float :=
  let remainder : Float :=
    match Exact.ofFloat x, Exact.ofFloat y with
    | .finite a p, .finite b q =>
      let floor := min p q
      let r := Int.tmod (Exact.scaled a p floor) (Exact.scaled b q floor)
      Float.ofInt r * powerOfTwo floor
    | .finite .., .infinite _ => x
    | _, _ => 0.0 / 0.0
  if remainder == 0.0 then (if Exact.signBit y then -0.0 else 0.0)
  else if (y < 0.0) != (remainder < 0.0) then remainder + y
  else remainder

end Cascade
