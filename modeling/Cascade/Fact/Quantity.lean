-- SUMMARY: Bare amounts and bounds: how the values that callers pass beside a key compare, add up and wrap around.
import Cascade.Fact.Arithmetic

/-! # Amounts and bounds

Some operations take bare numbers that never become facts. A truth value
counts as the integer zero or one there. Texts and lists compare as well, in
their order, so a pair of bounds can be out of order without being numbers. -/

namespace Cascade

/-! ## Order -/

namespace Document

mutual
/-- How two documents compare: numbers by their exact values, texts by their
    characters, lists item by item; nothing else has an order. No order is
    given either way to a value that is not a number. -/
def order? : Document → Document → Except Fault (Option Ordering)
  | .str s, .str t => .ok (some (compare s t))
  | .list xs, .list ys => orderItems xs ys
  | d, e =>
    match d.exactValue?, e.exactValue? with
    | some a, some b => .ok (a.compare? b)
    | _, _ => .error .wrongType

/-- How two lists compare: by their first unequal items, else by length. -/
def orderItems : List Document → List Document → Except Fault (Option Ordering)
  | [], [] => .ok (some .eq)
  | [], _ :: _ => .ok (some .lt)
  | _ :: _, [] => .ok (some .gt)
  | x :: xs, y :: ys => if same x y then orderItems xs ys else order? x y
end

end Document

namespace Datum

/-- Whether one datum is less than another; finished facts have no order. -/
def less (a b : Datum) : Except Fault Bool :=
  match a, b with
  | .document d, .document e => (d.order? e).map (· = some .lt)
  | _, _ => .error .wrongType

def atMost (a b : Datum) : Except Fault Bool :=
  match a, b with
  | .document d, .document e => (d.order? e).map fun o => o = some .lt || o = some .eq
  | _, _ => .error .wrongType

/-- The lesser of two data, the first if neither is. -/
def least (a b : Datum) : Except Fault Datum := do
  return if ← b.less a then b else a

/-- The greater of two data, the first if neither is. -/
def greatest (a b : Datum) : Except Fault Datum := do
  return if ← a.less b then b else a

/-! ## Numbers -/

/-- The number that a datum counts as; only bare numbers and truth values do. -/
def quantity (d : Datum) : Except Fault Fact :=
  match d with
  | .document (.int n) => .ok (.int n)
  | .document (.bool b) => .ok (.int (if b then 1 else 0))
  | .document (.float x) => .ok (.float x)
  | _ => .error .wrongType

def opposite (d : Datum) : Except Fault Datum := do
  return .fact (← (← d.quantity).negate)

/-- The integer fact of an integer plus an amount; a sum that is no integer
    does not fit. -/
def addedTo (n : Int) (amount : Datum) : Except Fault Fact := do
  (Datum.document (← Fact.arithmetic .add (.int n) (← amount.quantity)).payload).toFactOf .int

end Datum

namespace Fact

/-- The remainder of a division whose quotient is rounded down. -/
def flooredModulo (a b : Fact) : Except Fault Fact :=
  match a, b with
  | int n, int m => if m = 0 then .error .zeroModulus else .ok (int (Int.fmod n m))
  | a, b => do
    let x ← a.toFloat
    let y ← b.toFloat
    if y == 0.0 then throw .zeroModulus
    return ofResult (flooredRemainder x y)

/-- The number between two bounds that differs from `n` by a multiple of their
    distance. -/
def wrapped (n : Int) (low high : Datum) : Except Fault Fact := do
  let l ← low.quantity
  let offset ← arithmetic .sub (int n) l
  let h ← high.quantity
  let width ← arithmetic .sub h l
  arithmetic .add (← flooredModulo offset width) l

end Fact

end Cascade
