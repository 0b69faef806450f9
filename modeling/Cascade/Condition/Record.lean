-- SUMMARY: Reading conditions: from the record that writes one, and from the looser forms that stand for one.
import Cascade.Condition.Basic
import Cascade.Expr.Parse
import Cascade.Expr.Record

/-! # Conditions as records

A record is read by its kind. Where a condition is asked for loosely, nothing
stands for the one that always holds, an expression and a text that writes one
for the condition that it holds, and a list for all of its items together. -/

namespace Cascade

namespace Condition

/-! ## Loose forms -/

/-- The conjunction of conditions; none is always true and one stands for
    itself. -/
def conjunction : List Condition → Condition
  | [] => always
  | [c] => c
  | cs => all cs

/-- The condition that a text writes as an expression. -/
def ofText (source : String) : Except Fault Condition := do
  return expr (← Expr.parse source) (some source)

/-- What may stand where a condition is asked for loosely. -/
inductive Loose where
  | nothing
  | ready (c : Condition)
  | expression (e : Expr)
  | text (source : String)
  | list (items : List Loose)
  | other (d : Document)

namespace Loose

mutual
def condition : Loose → Except Fault Condition
  | nothing => .ok always
  | ready c => .ok c
  | expression e => .ok (expr e none)
  | text source => ofText source
  | list items => do return conjunction (← conditions items)
  | other d => .error (.malformed .unsupportedCondition (.str d.literal) 0)

/-- The conditions that the items of a list stand for. -/
def conditions : List Loose → Except Fault (List Condition)
  | [] => .ok []
  | item :: items => do
    let c ← item.condition
    return c :: (← conditions items)
end

mutual
/-- The loose form that a document is. A record is the list of its field names. -/
def ofDocument : Document → Loose
  | .null => nothing
  | .str source => text source
  | .list items => list (ofDocuments items)
  | .dict fields => list (fields.map fun (name, _) => text name)
  | d => other d

def ofDocuments : List Document → List Loose
  | [] => []
  | d :: ds => ofDocument d :: ofDocuments ds
end

end Loose

/-- The condition that a document stands for. -/
def ofLoose (d : Document) : Except Fault Condition := (Loose.ofDocument d).condition

/-! ## Records -/

def keyOf (fields : List (String × Document)) : Except Fault Key := do
  return .ofDocument (← Document.need fields "key").val

/-- A comparison of one fact; its constant is bare or tagged, and is looked at
    before the key if it is a record. -/
def comparison (op : Comparison) (fields : List (String × Document)) :
    Except Fault Condition := do
  match (← Document.need fields "value").val with
  | .dict inner => do
    let f ← Fact.ofTagged (.dict inner)
    return compares op (← keyOf fields) f
  | d => do
    let key ← keyOf fields
    return compares op key (← Fact.ofBare d)

/-- A document that is no list, where a list of records is asked for: it will
    do only if it has nothing in it. -/
def noRecords (d : Document) : Except Fault (List Condition) :=
  match d.elements? with
  | none => .error .wrongType
  | some [] => .ok []
  | some (_ :: _) => .error .noSuchMethod

/-- The fault of a kind of condition that there is none of. -/
def unknown (kind d : Document) : Fault :=
  .malformed (.unknownCondition kind) (.str d.literal) 0

mutual
def ofRecord (d : Document) : Except Fault Condition :=
  match d with
  | .dict fields =>
    match (Document.field? fields "kind").getD .null with
    | .str "always" => .ok always
    | .str "expr" =>
      match Document.field? fields "source" with
      | some source => ofLoose source
      | none => do
        let e ← Document.need fields "expression"
        return expr (← Expr.ofDocument e) none
    | .str "exists" => do return present (← keyOf fields)
    | .str "not_exists" => do return absent (← keyOf fields)
    | .str "is_true" => do return flag true (← keyOf fields)
    | .str "is_false" => do return flag false (← keyOf fields)
    | .str "all" => do
      match _h : Document.field? fields "conditions" with
      | none => return all []
      | some (.list items) => return all (← ofRecords items)
      | some d => return all (← noRecords d)
    | .str "any" => do
      match _h : Document.field? fields "conditions" with
      | none => return any []
      | some (.list items) => return any (← ofRecords items)
      | some d => return any (← noRecords d)
    | .str "not" => do
      let part ← Document.need fields "condition"
      return not (← ofRecord part)
    | .str name =>
      match comparisonOf? name with
      | some op => comparison op fields
      | none => .error (unknown (.str name) d)
    | .list _ | .dict _ => .error .wrongType
    | kind => .error (unknown kind d)
  | _ => .error .noSuchMethod
termination_by sizeOf d
decreasing_by
  · have := Document.sizeOf_field? _h; simp at *; omega
  · have := Document.sizeOf_field? _h; simp at *; omega
  · have := part.2; simp; omega

/-- The conditions that a list of records writes. -/
def ofRecords (ds : List Document) : Except Fault (List Condition) :=
  match ds with
  | [] => .ok []
  | d :: ds => do
    let c ← ofRecord d
    return c :: (← ofRecords ds)
termination_by sizeOf ds
decreasing_by
  · simp only [List.cons.sizeOf_spec]; omega
  · simp only [List.cons.sizeOf_spec]; omega

end

end Condition

end Cascade
