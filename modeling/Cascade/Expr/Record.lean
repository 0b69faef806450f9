-- SUMMARY: Reading an expression from the record that writes it.
import Cascade.Expr.Basic

/-! # Expressions as records

A record is read by its kind. The fields of an operator are all read before
the name of the operator is looked at. -/

namespace Cascade

namespace Document

/-- A field is smaller than the record that holds it. -/
theorem sizeOf_field? {fields : List (String × Document)} {key : String} {d : Document}
    (h : field? fields key = some d) : sizeOf d < sizeOf fields := by
  obtain ⟨⟨k, v⟩, hfind, rfl⟩ := Option.map_eq_some_iff.1 h
  have hmem := List.mem_of_find?_eq_some hfind
  have hlt := List.sizeOf_lt_of_mem hmem
  simp only [Prod.mk.sizeOf_spec] at hlt
  change sizeOf v < sizeOf fields
  omega

/-- A field that has to be there. -/
def need (fields : List (String × Document)) (key : String) :
    Except Fault { d : Document // sizeOf d < sizeOf fields } :=
  match h : field? fields key with
  | some d => .ok ⟨d, sizeOf_field? h⟩
  | none => .error (.missingField key)

end Document

namespace Expr

/-- A reference to a key, which must not be empty. -/
def reference (d : Document) : Except Fault Expr :=
  if d.truthy then .ok (fact (Key.ofDocument d)) else .error (.malformed .emptyKey d 0)

def unaryNamed (op : Document) (e : Expr) : Except Fault Expr :=
  match op.text?.bind UnaryOp.ofName? with
  | some u => .ok (unary u e)
  | none => .error (.malformed (.unknownUnary op) op 0)

def binaryNamed (op : Document) (l r : Expr) : Except Fault Expr :=
  match op.text?.bind BinaryOp.ofName? with
  | some b => .ok (binary b l r)
  | none => .error (.malformed (.unknownBinary op) op 0)

def ofDocument (d : Document) : Except Fault Expr :=
  match d with
  | .dict fields =>
    match (Document.field? fields "kind").getD .null with
    | .str "literal" => do
      let value ← Document.need fields "value"
      return literal (← Fact.ofTagged value)
    | .str "fact" => do
      let key ← Document.need fields "key"
      reference key
    | .str "unary" => do
      let op ← Document.need fields "op"
      let operand ← Document.need fields "operand"
      unaryNamed op (← ofDocument operand)
    | .str "binary" => do
      let op ← Document.need fields "op"
      let left ← Document.need fields "left"
      let l ← ofDocument left
      let right ← Document.need fields "right"
      let r ← ofDocument right
      binaryNamed op l r
    | kind => .error (.malformed (.unknownExpression kind) (.str d.literal) 0)
  | _ => .error (.malformed .notRecord (.str d.literal) 0)
termination_by d
decreasing_by
  · have := operand.2; simp; omega
  · have := left.2; simp; omega
  · have := right.2; simp; omega

end Expr

end Cascade
