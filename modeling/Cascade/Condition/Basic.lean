-- SUMMARY: Conditions: expressions, tests of single facts, and their combinations, with their truth and their documents.
import Cascade.Expr.Value

/-! # Conditions

A condition is true or false of a reading of the facts, or fails as an
expression does. The tests of single facts take a missing fact as an answer:
it compares with nothing and is neither true nor false. The combinations go
through their parts from left to right and stop at the first part that
decides or fails. -/

namespace Cascade

/-- A condition. An expression may remember the text that it was read from. -/
inductive Condition where
  | always
  | expr (expression : Expr) (source : Option String)
  | compares (op : Comparison) (key : Key) (value : Fact)
  | present (key : Key)
  | absent (key : Key)
  | flag (expected : Bool) (key : Key)
  | all (parts : List Condition)
  | any (parts : List Condition)
  | not (part : Condition)

namespace Condition

/-! ## Truth -/

/-- The truth value of a fact that is one, if there is the fact. -/
def truthOf (read : Reading) (key : Key) : Except Fault (Option Bool) := do
  match ← read key with
  | none => return none
  | some (.bool b) => return some b
  | some f => throw (.mismatch (.factNotBool key f.kind))

mutual
def check (read : Reading) : Condition → Except Fault Bool
  | always => .ok true
  | expr e _ => e.holds read
  | compares op key value => do
    match ← read key with
    | none => return false
    | some f => Fact.compare op f value
  | present key => do return (← read key).isSome
  | absent key => do return (← read key).isNone
  | flag expected key => do return (← truthOf read key) = some expected
  | all parts => checkAll read parts
  | any parts => checkAny read parts
  | not part => do return !(← part.check read)

def checkAll (read : Reading) : List Condition → Except Fault Bool
  | [] => .ok true
  | c :: cs => do if ← c.check read then checkAll read cs else return false

def checkAny (read : Reading) : List Condition → Except Fault Bool
  | [] => .ok false
  | c :: cs => do if ← c.check read then return true else checkAny read cs
end

/-! ## Documents -/

def comparisonName : Comparison → String
  | .eq => "equals"
  | .ne => "not_equals"
  | .gt => "greater_than"
  | .lt => "less_than"
  | .ge => "greater_or_equal"
  | .le => "less_or_equal"

/-- The comparison of one fact with the given name. -/
def comparisonOf? (name : String) : Option Comparison :=
  Comparison.all.find? (comparisonName · = name)

def kindName : Condition → String
  | always => "always"
  | expr .. => "expr"
  | compares op .. => comparisonName op
  | present _ => "exists"
  | absent _ => "not_exists"
  | flag expected _ => if expected then "is_true" else "is_false"
  | all _ => "all"
  | any _ => "any"
  | not _ => "not"

mutual
def toDocument (c : Condition) : Document :=
  .dict (("kind", .str c.kindName) ::
    match c with
    | always => []
    | expr _ (some source) => [("source", .str source)]
    | expr e none => [("expression", e.toDocument)]
    | compares _ key value => [("key", key.toDocument), ("value", value.toDocument)]
    | present key | absent key | flag _ key => [("key", key.toDocument)]
    | all parts | any parts => [("conditions", .list (toDocuments parts))]
    | not part => [("condition", part.toDocument)])

def toDocuments : List Condition → List Document
  | [] => []
  | c :: cs => c.toDocument :: toDocuments cs
end

end Condition

end Cascade
