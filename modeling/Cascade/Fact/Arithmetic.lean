-- SUMMARY: The operators on facts: arithmetic with integers kept exact and promoted beside a float, negation, comparison, and division rounded toward zero.
import Cascade.Fact.Reading

/-! # Arithmetic on facts

Two integers give an integer. Beside a float an integer is rounded to a float
first, and one that is too large for that is a fault of its own. Division of
integers rounds toward zero, and the remainder belongs to that quotient. An
integer and a float are compared exactly, without rounding. -/

namespace Cascade

/-! ## Operators -/

inductive Arithmetic where
  | add | sub | mul | div | mod
  deriving DecidableEq, Repr

inductive Comparison where
  | lt | le | gt | ge | eq | ne
  deriving DecidableEq, Repr

namespace Arithmetic

def name : Arithmetic → String
  | add => "add"
  | sub => "sub"
  | mul => "mul"
  | div => "div"
  | mod => "mod"

def all : List Arithmetic := [add, sub, mul, div, mod]

def ofName? (s : String) : Option Arithmetic := all.find? (·.name = s)

end Arithmetic

namespace Comparison

def name : Comparison → String
  | lt => "lt"
  | le => "le"
  | gt => "gt"
  | ge => "ge"
  | eq => "eq"
  | ne => "ne"

def all : List Comparison := [lt, le, gt, ge, eq, ne]

def ofName? (s : String) : Option Comparison := all.find? (·.name = s)

/-- Whether an operator needs an order, and not only equality. -/
def needsOrder : Comparison → Bool
  | eq | ne => false
  | _ => true

/-- What an operator makes of the way two values compare; values that do not
    compare at all are unequal and nothing else. -/
def holds (op : Comparison) (order? : Option Ordering) : Bool :=
  match op with
  | lt => order? = some .lt
  | le => order? = some .lt || order? = some .eq
  | gt => order? = some .gt
  | ge => order? = some .gt || order? = some .eq
  | eq => order? = some .eq
  | ne => order? ≠ some .eq

end Comparison

/-! ## Numbers -/

/-- The quotient of two integers, rounded toward zero: the quotient of their
    magnitudes, negative if exactly one of them is. -/
def truncatedQuotient (a b : Int) : Int :=
  let q : Int := (a.natAbs / b.natAbs : Nat)
  if (0 ≤ a) = (0 ≤ b) then q else -q

/-- The remainder that belongs to the quotient rounded toward zero. -/
def truncatedRemainder (a b : Int) : Int := a - b * truncatedQuotient a b

namespace Fact

/-- The float of a numeric fact; an integer is rounded. -/
def toFloat : Fact → Except Fault Float
  | int n =>
    match floatOfInt? n with
    | some x => .ok x
    | none => .error .tooLarge
  | float x => .ok x
  | indeterminate _ => .ok (0.0 / 0.0)
  | f => .error (.mismatch (.notNumeric f.kind))

def isZero : Fact → Bool
  | int n => n = 0
  | float x => x == 0.0
  | _ => false

/-- An operator on two numeric facts that are not both integers. -/
def floatArithmetic (op : Float → Float → Float) (l r : Fact) : Except Fault Fact := do
  let a ← l.toFloat
  let b ← r.toFloat
  return ofResult (op a b)

def arithmetic (op : Arithmetic) (l r : Fact) : Except Fault Fact :=
  match op, l, r with
  | .add, string a, string b => .ok (string (a ++ b))
  | op, l, r =>
    if !l.kind.isNumeric || !r.kind.isNumeric then
      .error (.mismatch (.undefinedFor op.name l.kind r.kind))
    else
      match op, l, r with
      | .mod, int a, int b =>
        if b = 0 then .error .moduloByZero else .ok (int (truncatedRemainder a b))
      | .mod, _, _ => .error (.mismatch .remainderOfInts)
      | .add, int a, int b => .ok (int (a + b))
      | .sub, int a, int b => .ok (int (a - b))
      | .mul, int a, int b => .ok (int (a * b))
      | .div, int a, int b =>
        if b = 0 then .error .divisionByZero else .ok (int (truncatedQuotient a b))
      | .add, l, r => floatArithmetic (· + ·) l r
      | .sub, l, r => floatArithmetic (· - ·) l r
      | .mul, l, r => floatArithmetic (· * ·) l r
      | .div, l, r =>
        if r.isZero then .error .divisionByZero else floatArithmetic (· / ·) l r

/-- The result of an operator given by name: the names are looked at only once
    the facts are known to be numbers. -/
def arithmeticNamed (op : String) (l r : Fact) : Except Fault Fact :=
  match Arithmetic.ofName? op with
  | some op => arithmetic op l r
  | none =>
    if !l.kind.isNumeric || !r.kind.isNumeric then
      .error (.mismatch (.undefinedFor op l.kind r.kind))
    else .error (.mismatch (.unknownArithmetic op))

def negate : Fact → Except Fault Fact
  | int n => .ok (int (-n))
  | float x => .ok (ofResult (-x))
  | indeterminate _ => .ok (indeterminate none)
  | f => .error (.mismatch (.cannotNegate f.kind))

/-! ## Comparison -/

/-- How two facts compare that are both numbers or of one kind: numbers by
    their exact values, texts by their characters, all else only for equality. -/
def order? (l r : Fact) : Option Ordering :=
  match l.exactValue?, r.exactValue? with
  | some a, some b => a.compare? b
  | _, _ =>
    match l, r with
    | string a, string b => some (compare a b)
    | _, _ => if l = r then some .eq else none

/-- Whether two facts may be compared, given whether an order is needed. -/
def comparable (op : String) (needsOrder : Bool) (l r : Fact) : Except Fault Unit :=
  if l.kind.isNumeric && r.kind.isNumeric then .ok ()
  else if l.kind = r.kind then
    if needsOrder && !l.kind.isOrdered then .error (.mismatch (.unordered op l.kind))
    else .ok ()
  else .error (.mismatch (.incomparable l.kind r.kind))

def compare (op : Comparison) (l r : Fact) : Except Fault Bool := do
  comparable op.name op.needsOrder l r
  return op.holds (order? l r)

/-- A comparison given by name: the names are looked at last. -/
def compareNamed (op : String) (l r : Fact) : Except Fault Bool :=
  match Comparison.ofName? op with
  | some op => compare op l r
  | none => do
    comparable op true l r
    throw (.mismatch (.unknownComparison op))

end Fact

end Cascade
