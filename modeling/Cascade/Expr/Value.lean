-- SUMMARY: The value of an expression, given what each key reads as, and the truth of a condition written as an expression.
import Cascade.Expr.Basic

/-! # Values of expressions

A **reading** says what each key reads as: a fact, nothing, or a fault. The
operands of an operator are evaluated from left to right, and a connective
leaves its right operand alone if the left one decides. -/

namespace Cascade

/-- What a key reads as. -/
abbrev Reading := Key → Except Fault (Option Fact)

/-- The truth value of a fact that is one. -/
def Fact.requireBool (context : String) : Fact → Except Fault Bool
  | .bool b => .ok b
  | f => .error (.mismatch (.notBool context f.kind))

namespace Expr

/-- The value of a reference: a key that reads as nothing is unknown. -/
def fetch (read : Reading) (key : Key) : Except Fault Fact := do
  match ← read key with
  | some f => return f
  | none => throw (.unknownFact key)

def applyUnary (op : UnaryOp) (f : Fact) : Except Fault Fact :=
  match op with
  | .neg => f.negate
  | .not => do return .bool !(← f.requireBool "not")

def eval (read : Reading) : Expr → Except Fault Fact
  | literal v => .ok v
  | fact k => fetch read k
  | unary op e => do applyUnary op (← e.eval read)
  | binary (.connective .and) l r => do
    if ← (← l.eval read).requireBool "and" then
      return .bool (← (← r.eval read).requireBool "and")
    else return .bool false
  | binary (.connective .or) l r => do
    if ← (← l.eval read).requireBool "or" then return .bool true
    else return .bool (← (← r.eval read).requireBool "or")
  | binary (.comparison op) l r => do
    let a ← l.eval read
    let b ← r.eval read
    return .bool (← Fact.compare op a b)
  | binary (.arithmetic op) l r => do
    let a ← l.eval read
    let b ← r.eval read
    Fact.arithmetic op a b

/-- The truth of an expression that stands as a condition. -/
def holds (read : Reading) (e : Expr) : Except Fault Bool := do
  (← e.eval read).requireBool "condition"

end Expr

end Cascade
