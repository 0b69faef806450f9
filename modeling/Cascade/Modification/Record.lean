-- SUMMARY: Reading modifications: from the record that writes one, and from a call of the class of one.
import Cascade.Expr.Parse
import Cascade.Expr.Record
import Cascade.Modification.Basic
import Cascade.Store.Call

/-! # Modifications as records and calls

A record names its operation and writes its value under the field that the
operation has for it. A call names the class of the modification and gives its
fields as keyword arguments, where an amount may also be the text of an
expression. -/

namespace Cascade

/-! ## Records -/

/-- The value that a record writes: an expression if it has one, else a
    tagged constant. -/
def ValueSpec.ofRecord (d : Document) : Except Fault ValueSpec := do
  match d with
  | .dict fields =>
    match Document.field? fields "expr" with
    | some e => return computed (← Expr.ofDocument e)
    | none => return constant (← Fact.ofTagged (← Document.need fields "value").val)
  | _ => throw .wrongType

namespace Modification

/-- The layer that a document names; nothing names none. -/
def layerOf : Document → Option LayerRef
  | .null => none
  | d => some (.ofDatum (.document d))

def specOf (fields : List (String × Document)) (name : String) : Except Fault ValueSpec := do
  ValueSpec.ofRecord (← Document.need fields name).val

def effectOf (fields : List (String × Document)) : Except Fault Effect :=
  match (Document.field? fields "op").getD .null with
  | .str "set" => do return .set (← ValueSpec.ofRecord (.dict fields))
  | .str "set_if_changed" => do
    let value ← ValueSpec.ofRecord (.dict fields)
    let outputs := (Document.field? fields "outputs_on_change").getD (.list [])
    return .setIfChanged value (← outputs.elements)
  | .str "increment" => do return .increment (← specOf fields "amount")
  | .str "decrement" => do return .decrement (← specOf fields "amount")
  | .str "remove" => .ok .remove
  | .str "toggle" => .ok .toggle
  | .str name =>
    match Compound.ofName? name with
    | some op => do return .combine op (← specOf fields "operand")
    | none => .error (.refused (.unknownModification (.str name)))
  | .list _ | .dict _ => .error .wrongType
  | op => .error (.refused (.unknownModification op))

/-- The modification that a record writes. The key has to be there, whatever
    the operation. -/
def ofRecord (fields : List (String × Document)) : Except Fault Modification := do
  let key ← Document.need fields "key"
  let layer := layerOf ((Document.field? fields "layer").getD .null)
  return ⟨.ofDocument key.val, layer, ← effectOf fields⟩

/-! ## Calls -/

/-- An argument of a call: an expression or a datum. -/
inductive Argument where
  | expr (e : Expr)
  | datum (d : Datum)

namespace Argument

/-- The argument that a document writes under a name. Under the names of values
    a record may ask for the expression that a text writes. -/
def ofDocument (name : String) (d : Document) : Except Fault Argument :=
  if name ∈ ["value", "amount", "operand"] then
    match d.get? "parse" with
    | some source => do return expr (← Expr.parseDocument source)
    | none => do return datum (← Datum.ofDocument d)
  else .ok (datum (.document d))

/-- A value argument: texts stand for themselves. -/
def value : Argument → Except Fault ValueSpec
  | expr e => .ok (.computed e)
  | datum d => do return .constant (← d.toFact)

/-- An amount argument: texts write expressions. -/
def amount : Argument → Except Fault ValueSpec
  | datum (.document (.str source)) => do return .computed (← Expr.parse source)
  | a => a.value

/-- An argument as a document; only values can be anything else. -/
def document : Argument → Document
  | expr e => e.toDocument
  | datum d => d.toDocument

end Argument

/-- The arguments of a call by the names of their parameters. -/
abbrev Arguments := List (String × Argument)

namespace Arguments

def get? (args : Arguments) (name : String) : Option Argument :=
  (args.find? (·.1 = name)).map (·.2)

def get (args : Arguments) (name : String) : Except Fault Argument :=
  match args.get? name with
  | some a => .ok a
  | none => .error .wrongType

/-- Refuses arguments for which there is no parameter. -/
def only (args : Arguments) (names : List String) : Except Fault Unit :=
  if args.all fun (name, _) => name ∈ names then .ok () else .error .wrongType

end Arguments

/-- The parameters of a class, the key and the layer apart. -/
def parametersOf (className : String) : Option (List String) :=
  match className with
  | "Set" => some ["value"]
  | "SetIfChanged" => some ["value", "outputs_on_change"]
  | "Increment" | "Decrement" => some ["amount"]
  | "Add" | "Subtract" | "Multiply" | "Divide" => some ["operand"]
  | "Remove" | "Toggle" => some []
  | _ => none

def effectOfClass (className : String) (args : Arguments) : Except Fault Effect :=
  let one : Argument := .datum (.fact (.int 1))
  match className with
  | "Set" => do return .set (← (← args.get "value").value)
  | "SetIfChanged" => do
    let value ← (← args.get "value").value
    match args.get? "outputs_on_change" with
    | none => return .setIfChanged value []
    | some outputs => return .setIfChanged value (← outputs.document.elements)
  | "Increment" => do return .increment (← ((args.get? "amount").getD one).amount)
  | "Decrement" => do return .decrement (← ((args.get? "amount").getD one).amount)
  | "Add" => do return .combine .add (← (← args.get "operand").amount)
  | "Subtract" => do return .combine .sub (← (← args.get "operand").amount)
  | "Multiply" => do return .combine .mul (← (← args.get "operand").amount)
  | "Divide" => do return .combine .div (← (← args.get "operand").amount)
  | "Remove" => .ok .remove
  | _ => .ok .toggle

/-- The modification that a call of a class makes. -/
def ofCall (className : String) (fields : List (String × Document)) :
    Except Fault Modification := do
  let args : Arguments ← fields.mapM fun (name, d) => do
    return (name, ← Argument.ofDocument name d)
  match parametersOf className with
  | none => throw (.missingField className)
  | some names =>
    args.only (["key", "layer"] ++ names)
    let key ← args.get "key"
    let layer := ((args.get? "layer").map (·.document)).getD .null
    return ⟨.ofDocument key.document, layerOf layer, ← effectOfClass className args⟩

/-- The modification that a document describes: the record of one, or a call
    of the class that it names. -/
def ofFields (fields : List (String × Document)) : Except Fault Modification :=
  match Document.field? fields "class" with
  | some className =>
    ofCall (className.text?.getD "") (fields.filter (·.1 ≠ "class"))
  | none => ofRecord fields

end Modification

end Cascade
