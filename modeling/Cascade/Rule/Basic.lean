-- SUMMARY: Rules: an event, a condition, and the modifications, actions and further events that follow when the condition holds.
import Cascade.Condition.Basic
import Cascade.Modification.Basic

/-! # Rules

A rule waits for an event. When the event is processed and the condition
holds, the rule fires: its modifications are applied, its actions called and
its output events enqueued.

Whether a rule is enabled, whether it consumes its event and how urgent it is
are kept as they were given: as a rule two truth values and an integer, but a
caller may give any value, which then counts as true or false or as a number
where it is used. -/

namespace Cascade

/-- What happens on an event if a condition holds. -/
structure Rule where
  id : String
  event : String
  condition : Condition
  modifications : List Modification
  actions : List String
  outputs : List String
  consumption : Document
  priority : Document
  enablement : Document

namespace Rule

/-- Whether no further rule sees an event on which the rule has fired. -/
def consumes (r : Rule) : Bool := r.consumption.truthy

/-- Whether the rule matches events at all. -/
def isEnabled (r : Rule) : Bool := r.enablement.truthy

def toDocument (r : Rule) : Document :=
  .dict
    [ ("id", .str r.id),
      ("event", .str r.event),
      ("condition", r.condition.toDocument),
      ("modifications", .list (r.modifications.map (·.toDocument))),
      ("actions", .texts r.actions),
      ("outputs", .texts r.outputs),
      ("consume_event", r.consumption),
      ("priority", r.priority),
      ("enabled", r.enablement) ]

/-- A rule under another name, which must not be empty. -/
def withId (r : Rule) (id : Document) : Except Fault Rule :=
  match id with
  | .str s => if s = "" then .error (.refused .emptyId) else .ok { r with id := s }
  | _ => .error (.refused .emptyId)

end Rule

end Cascade
