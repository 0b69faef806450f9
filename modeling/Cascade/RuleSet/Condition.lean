-- SUMMARY: The conditions that rule set documents allow: their strict form and the conditions that they stand for.
import Cascade.Condition.Record

/-! # Conditions of rule sets

A rule set is stricter than the record of a condition: every record has just
the fields of its kind, keys and sources are texts, and expressions are always
written as texts. Any other document is no condition of a rule set. -/

namespace Cascade

inductive ConditionSpec where
  | text (source : String)
  | always
  | expr (source : String)
  | compares (op : Comparison) (key : String) (value : Document)
  | present (key : String)
  | absent (key : String)
  | flag (expected : Bool) (key : String)
  | all (parts : List ConditionSpec)
  | any (parts : List ConditionSpec)
  | not (part : ConditionSpec)

namespace Document

def hasOnly (fields : List (String × Document)) (names : List String) : Bool :=
  fields.all fun (name, _) => name ∈ names

/-- The text of a field that is one. -/
def textField? (fields : List (String × Document)) (name : String) : Option String :=
  (field? fields name).bind text?

end Document

namespace ConditionSpec

/-- A condition on the key of a record that has no fields but its kind and
    the key. -/
def keyed? (fields : List (String × Document)) (f : String → ConditionSpec) :
    Option ConditionSpec :=
  if Document.hasOnly fields ["kind", "key"] then
    (Document.textField? fields "key").map f
  else none

def comparison? (op : Comparison) (fields : List (String × Document)) :
    Option ConditionSpec :=
  if Document.hasOnly fields ["kind", "key", "value"] then do
    let key ← Document.textField? fields "key"
    let value ← Document.field? fields "value"
    return compares op key value
  else none

mutual
/-- The condition that a document writes in the strict form. -/
def ofDocument? (d : Document) : Option ConditionSpec :=
  match d with
  | .str source => some (text source)
  | .dict fields =>
    match (Document.field? fields "kind").bind Document.text? with
    | some "always" => if Document.hasOnly fields ["kind"] then some always else none
    | some "expr" =>
      if Document.hasOnly fields ["kind", "source"] then
        (Document.textField? fields "source").map expr
      else none
    | some "exists" => keyed? fields present
    | some "not_exists" => keyed? fields absent
    | some "is_true" => keyed? fields (flag true)
    | some "is_false" => keyed? fields (flag false)
    | some "all" =>
      if Document.hasOnly fields ["kind", "conditions"] then
        match _h : Document.field? fields "conditions" with
        | none => some (all [])
        | some (.list items) => (ofDocuments? items).map all
        | some _ => none
      else none
    | some "any" =>
      if Document.hasOnly fields ["kind", "conditions"] then
        match _h : Document.field? fields "conditions" with
        | none => some (any [])
        | some (.list items) => (ofDocuments? items).map any
        | some _ => none
      else none
    | some "not" =>
      if Document.hasOnly fields ["kind", "condition"] then
        match _h : Document.field? fields "condition" with
        | some part => (ofDocument? part).map not
        | none => none
      else none
    | some name => (Condition.comparisonOf? name).bind fun op => comparison? op fields
    | none => none
  | _ => none
termination_by sizeOf d
decreasing_by
  · have := Document.sizeOf_field? _h; simp at *; omega
  · have := Document.sizeOf_field? _h; simp at *; omega
  · have := Document.sizeOf_field? _h; simp at *; omega

/-- The conditions that a list writes in the strict form. -/
def ofDocuments? (ds : List Document) : Option (List ConditionSpec) :=
  match ds with
  | [] => some []
  | d :: ds => do
    let c ← ofDocument? d
    let cs ← ofDocuments? ds
    return c :: cs
termination_by sizeOf ds
decreasing_by
  · simp only [List.cons.sizeOf_spec]; omega
  · simp only [List.cons.sizeOf_spec]; omega
end

mutual
def build : ConditionSpec → Except Fault Condition
  | text source | expr source => Condition.ofText source
  | always => .ok .always
  | compares op key value => do
    return .compares op (.name key) (← Fact.ofDocument value)
  | present key => .ok (.present (.name key))
  | absent key => .ok (.absent (.name key))
  | flag expected key => .ok (.flag expected (.name key))
  | all parts => do return .all (← buildAll parts)
  | any parts => do return .any (← buildAll parts)
  | not part => do return .not (← part.build)

def buildAll : List ConditionSpec → Except Fault (List Condition)
  | [] => .ok []
  | c :: cs => do
    let c ← c.build
    return c :: (← buildAll cs)
end

end ConditionSpec

end Cascade
