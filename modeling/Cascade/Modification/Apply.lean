-- SUMMARY: Applying a modification to a layered store: what it writes, where, and whether anything changed.
import Cascade.Expr.Value
import Cascade.Modification.Basic

/-! # Applying modifications

A modification computes with what the keys read as through all layers and
writes to one layer. A fact that is there already keeps its kind: an integer
written over a float becomes a float, any other change of kind is refused. The
answer says whether the layer holds something new. -/

namespace Cascade

/-- How keys read, given a state of the store. -/
abbrev Lookup := Layered → Reading

def ValueSpec.value (read : Reading) : ValueSpec → Except Fault Fact
  | constant f => .ok f
  | computed e => e.eval read

/-- The value of a specification in the present state of the store. -/
def ValueSpec.resolve (look : Lookup) (spec : ValueSpec) : Attempt Layered Fact :=
  Attempt.reading fun db => spec.value (look db)

/-- The fact that may be written over a visible one: of the same kind, or
    widened to a float. -/
def Fact.assignable (key : Key) (current : Option Fact) (new : Fact) : Except Fault Fact :=
  match current with
  | none => .ok new
  | some f =>
    if f.kind = new.kind then .ok new
    else
      match f.kind, new with
      | .float, .int n => Fact.ofKind .float (.int n)
      | _, _ => .error (.mismatch (.changesKind key f.kind new.kind))

namespace Modification

/-- What a key reads as in the store. -/
def current (key : Key) : Attempt Layered (Option Fact) := Attempt.reading (·.read key)

/-- Writes a fact over a visible one, to a layer; says whether it wrote. -/
def overwrite (key : Key) (layer : LayerRef) (visible : Option Fact)
    (new : Except Fault Fact) : Attempt Layered Bool := do
  let f ← Attempt.ofExcept (do Fact.assignable key visible (← new))
  (← Layered.target layer).setIfChanged key (.fact f)

/-- Adds or subtracts an amount; a missing fact counts as zero. -/
def count (op : Arithmetic) (key : Key) (amount : ValueSpec) (look : Lookup)
    (layer : LayerRef) : Attempt Layered Bool := do
  let f ← amount.resolve look
  let visible ← current key
  overwrite key layer visible (Fact.arithmetic op (visible.getD (.int 0)) f)

/-- Applies a modification and says whether anything changed. -/
def apply (m : Modification) (look : Lookup) (default : LayerRef) :
    Attempt Layered Bool := do
  let key := m.key
  let layer := m.target default
  match m.effect with
  | .set value => do
    let new ← value.resolve look
    overwrite key layer (← current key) (.ok new)
  | .setIfChanged value _ => do
    let new ← value.resolve look
    let visible ← current key
    let f ← Attempt.ofExcept (Fact.assignable key visible new)
    if Fact.isSame? visible f then return false
    Layered.setIfChanged key (.fact f) layer
  | .increment amount => count .add key amount look layer
  | .decrement amount => count .sub key amount look layer
  | .combine op operand => do
    match ← current key with
    | none => throw (.unknownFact key)
    | some f => do
      let g ← operand.resolve look
      overwrite key layer (some f) (Fact.arithmetic op.arithmetic f g)
  | .remove => do return (← Layered.remove key layer).isSome
  | .toggle => do
    match ← current key with
    | none => (← Layered.target layer).setIfChanged key (.fact (.bool true))
    | some (.bool b) => (← Layered.target layer).setIfChanged key (.fact (.bool !b))
    | some f => throw (.mismatch (.cannotToggle key f.kind))

end Modification

end Cascade
