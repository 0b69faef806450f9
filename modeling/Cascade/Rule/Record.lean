-- SUMMARY: Reading rules: what the parts of a rule have to be, the record that writes a rule, and the call that makes one.
import Cascade.Condition.Record
import Cascade.Modification.Record
import Cascade.Rule.Basic
import Cascade.Text.Integer

/-! # Rules as records and calls

A rule is put together from parts that may still be anything; `Draft.rule`
says what they have to be. The record of a rule reads its parts first, the
call that makes a rule hands them over as they are. -/

namespace Cascade

namespace Rule

/-! ## Parts -/

/-- What stands where a modification of a rule belongs. -/
inductive ModificationPart where
  | ready (m : Modification)
  | other (d : Document)

/-- A rule whose parts are still to be looked at. -/
structure Draft where
  id : Document
  event : Document
  condition : Condition.Loose
  modifications : Except Fault (List ModificationPart)
  actions : Document
  outputs : Document
  consumption : Document
  priority : Document
  enablement : Document

/-- A text that is not empty, or a fault. -/
def nonEmpty (d : Document) (fault : Fault) : Except Fault String :=
  match d with
  | .str s => if s = "" then .error fault else .ok s
  | _ => .error fault

/-- The modification that a part is, if it names a layer that exists or none. -/
def ModificationPart.modification (id : String) :
    ModificationPart → Except Fault Modification
  | other d => .error (.refused (.notModification id d))
  | ready m =>
    match m.layer with
    | some (.other d) => .error (.refused (.unknownLayer id d))
    | _ => .ok m

/-- The names of a list, none of which may be empty. -/
def names (id list : String) (d : Document) : Except Fault (List String) := do
  (← d.elements).mapM fun item => nonEmpty item (.refused (.emptyName id list))

def Draft.rule (d : Draft) : Except Fault Rule := do
  let id ← nonEmpty d.id (.refused .emptyId)
  let event ← nonEmpty d.event (.refused (.emptyEvent id))
  let condition ← d.condition.condition
  let modifications ← (← d.modifications).mapM (·.modification id)
  let actions ← names id "actions" d.actions
  let outputs ← names id "outputs" d.outputs
  return ⟨id, event, condition, modifications, actions, outputs, d.consumption, d.priority,
    d.enablement⟩

/-! ## Records -/

/-- The integer that a document stands for: a number loses its fraction, and a
    text is read. -/
def integerOf (d : Document) : Except Fault Int :=
  match d with
  | .int n => .ok n
  | .bool b => .ok (if b then 1 else 0)
  | .float x =>
    match Exact.ofFloat x, (Exact.ofFloat x).truncated? with
    | _, some n => .ok n
    | .nan, none => .error (.badArgument .integerOfNaN)
    | _, none => .error .tooLarge
  | .str s =>
    match Text.groupedInteger? s with
    | some n => .ok n
    | none => .error (.badArgument (.integerText s))
  | _ => .error .wrongType

def modificationOf (d : Document) : Except Fault Modification :=
  match d with
  | .dict fields => Modification.ofRecord fields
  | _ => .error .noSuchMethod

/-- A field of a record, or what stands for it if it is not there. -/
def fieldOr (fields : List (String × Document)) (name : String) (default : Document) :
    Document :=
  (Document.field? fields name).getD default

/-- The condition of a rule's record; nothing stands for the one that always
    holds. -/
def conditionOf (fields : List (String × Document)) : Except Fault Condition :=
  match Document.field? fields "condition" with
  | none | some .null => .ok .always
  | some d => Condition.ofRecord d

/-- The parts that a record writes. -/
def draftOf (fields : List (String × Document)) : Except Fault Draft := do
  let condition ← conditionOf fields
  let id ← Document.need fields "id"
  let event ← Document.need fields "event"
  let items ← (fieldOr fields "modifications" (.list [])).elements
  let modifications ← items.mapM modificationOf
  let actions ← (fieldOr fields "actions" (.list [])).elements
  let outputs ← (fieldOr fields "outputs" (.list [])).elements
  let priority ← integerOf (fieldOr fields "priority" (.int 0))
  return {
    id := id.val
    event := event.val
    condition := .ready condition
    modifications := .ok (modifications.map .ready)
    actions := .list actions
    outputs := .list outputs
    consumption := .bool (fieldOr fields "consume_event" (.bool false)).truthy
    priority := .int priority
    enablement := .bool (fieldOr fields "enabled" (.bool true)).truthy }

def ofRecord (d : Document) : Except Fault Rule :=
  match d with
  | .dict fields => do (← draftOf fields).rule
  | _ => .error .noSuchMethod

/-! ## Calls -/

def parameters : List String :=
  ["id", "event", "condition", "modifications", "actions", "outputs", "consume_event",
    "priority", "enabled"]

/-- The condition that a call hands over: a record is read first. -/
def conditionPart (fields : List (String × Document)) : Except Fault Condition.Loose :=
  match Document.field? fields "condition" with
  | none => .ok (.ready .always)
  | some (.dict inner) => do return .ready (← Condition.ofRecord (.dict inner))
  | some d => .ok (.ofDocument d)

def modificationPart (d : Document) : Except Fault ModificationPart :=
  match d with
  | .dict fields => do return .ready (← Modification.ofFields fields)
  | d => .ok (.other d)

/-- The modifications that a call hands over: the records of a list are read
    first, anything else is gone through later. -/
def modificationParts (fields : List (String × Document)) :
    Except Fault (Except Fault (List ModificationPart)) :=
  match Document.field? fields "modifications" with
  | none => .ok (.ok [])
  | some (.list items) => do return .ok (← items.mapM modificationPart)
  | some d => .ok (d.elements.map (·.map .other))

def ofCall (fields : List (String × Document)) : Except Fault Rule := do
  let condition ← conditionPart fields
  let modifications ← modificationParts fields
  if fields.any fun (name, _) => name ∉ parameters then throw .wrongType
  match Document.field? fields "id", Document.field? fields "event" with
  | some id, some event =>
    Draft.rule {
      id, event, condition, modifications
      actions := fieldOr fields "actions" (.list [])
      outputs := fieldOr fields "outputs" (.list [])
      consumption := fieldOr fields "consume_event" (.bool false)
      priority := fieldOr fields "priority" (.int 0)
      enablement := fieldOr fields "enabled" (.bool true) }
  | _, _ => throw .wrongType

/-- The rule that a document describes: the record of one, or the call that
    makes it. -/
def ofDocument (d : Document) : Except Fault Rule :=
  match d.get? "new" with
  | some (.dict fields) => ofCall fields
  | some _ => .error .wrongType
  | none => ofRecord d

end Rule

end Cascade
