-- SUMMARY: Modifications: what a rule does to one key of one layer, with constant or computed values, and their documents.
import Cascade.Expr.Basic
import Cascade.Store.Writes

/-! # Modifications

A modification names a key, perhaps a layer, and what is to happen to the key.
A value is a constant or an expression; an expression is evaluated when the
modification is applied, so it sees what earlier modifications wrote. -/

namespace Cascade

/-- A value that is given or computed. -/
inductive ValueSpec where
  | constant (f : Fact)
  | computed (e : Expr)

inductive Compound where
  | add | sub | mul | div
  deriving DecidableEq, Repr

inductive Effect where
  | set (value : ValueSpec)
  | setIfChanged (value : ValueSpec) (outputs : List Document)
  | increment (amount : ValueSpec)
  | decrement (amount : ValueSpec)
  | combine (op : Compound) (operand : ValueSpec)
  | remove
  | toggle

/-- A change of one key. If no layer is named, the default one is meant. -/
structure Modification where
  key : Key
  layer : Option LayerRef
  effect : Effect

/-! ## Names -/

namespace Compound

def arithmetic : Compound → Arithmetic
  | add => .add
  | sub => .sub
  | mul => .mul
  | div => .div

def name (op : Compound) : String := op.arithmetic.name

def all : List Compound := [add, sub, mul, div]

def ofName? (s : String) : Option Compound := all.find? (·.name = s)

end Compound

def Effect.name : Effect → String
  | set _ => "set"
  | setIfChanged .. => "set_if_changed"
  | increment _ => "increment"
  | decrement _ => "decrement"
  | combine op _ => op.name
  | remove => "remove"
  | toggle => "toggle"

/-! ## Documents -/

/-- The field that writes a value. -/
def ValueSpec.toField : ValueSpec → String × Document
  | constant f => ("value", f.toDocument)
  | computed e => ("expr", e.toDocument)

/-- The fields that write an effect, after its name. -/
def Effect.toFields : Effect → List (String × Document)
  | set value => [value.toField]
  | setIfChanged value outputs => [("outputs_on_change", .list outputs), value.toField]
  | increment amount | decrement amount => [("amount", .dict [amount.toField])]
  | combine _ operand => [("operand", .dict [operand.toField])]
  | remove | toggle => []

namespace Modification

def layerDocument (m : Modification) : Document :=
  match m.layer with
  | some l => l.toDatum.toDocument
  | none => .null

def toDocument (m : Modification) : Document :=
  .dict ([("op", .str m.effect.name), ("key", m.key.toDocument), ("layer", m.layerDocument)]
    ++ m.effect.toFields)

/-- The events that follow a modification, given whether it changed anything. -/
def outputs (m : Modification) (changed : Bool) : List Document :=
  match m.effect with
  | .setIfChanged _ outputs => if changed then outputs else []
  | _ => []

/-- The layer that a modification goes to. A layer that counts as nothing is
    the default one. -/
def target (m : Modification) (default : LayerRef) : LayerRef :=
  match m.layer with
  | some l => if l.toDatum.truthy then l else default
  | none => default

end Modification

end Cascade
