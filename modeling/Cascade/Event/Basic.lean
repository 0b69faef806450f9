-- SUMMARY: Events: named signals with a payload, the event that began their cascade and the rule that caused them.
import Cascade.Modification.Apply

/-! # Events

An event is a name with a payload of facts. Its **root** is the event from
outside with which its cascade began, its **cause** the rule that put it out,
if one did. While an event is processed, the keys `event.<name>` read its
payload first; every other key reads the store. -/

namespace Cascade

/-- A named signal. -/
structure Event where
  id : String
  payload : Facts
  root : String
  cause : Option String

namespace Event

/-- What the keys that read the payload start with. -/
def payloadMark : String := "event."

/-- An event. The name must be a text that is not empty; without a root, the
    event is its own. -/
def make (id : Document) (payload : List (String × Datum)) (root : String)
    (cause : Option String) : Except Fault Event := do
  match id with
  | .str name => do
    if name = "" then throw (.badArgument .event)
    let facts ← payload.mapM fun (k, v) => do return (k, ← v.toFact)
    return ⟨name, .ofList facts, if root = "" then name else root, cause⟩
  | _ => throw (.badArgument .event)

/-- The name in the payload that a key asks for, if it asks for one. -/
def payloadName? (key : String) : Option String :=
  let mark := payloadMark.toList
  if key.toList.take mark.length = mark then
    some (String.ofList (key.toList.drop mark.length))
  else none

/-- What a name reads as in the payload. -/
def fact? (e : Event) (key : String) : Option Fact :=
  (payloadName? key).bind e.payload.get?

/-- How keys read through the payload first and the store then; the payload can
    only be asked for names. -/
def consult (e : Event) : Lookup := fun db key =>
  match key with
  | .name s =>
    match e.fact? s with
    | some f => .ok (some f)
    | none => db.read key
  | .other _ => .error .noSuchMethod

/-- How keys read while the event is processed: an event without a payload
    leaves everything to the store. -/
def lookup (e : Event) : Lookup :=
  if e.payload.isEmpty then fun db key => db.read key else e.consult

/-- An event as a document, with what it says of its root and its cause. -/
def documentWith (e : Event) (root cause : Document) : Document :=
  .dict
    [ ("id", .str e.id), ("payload", e.payload.toDocument), ("root", root),
      ("cause", cause) ]

def toDocument (e : Event) : Document := e.documentWith (.str e.root) (.ofText? e.cause)

/-- An event of its own as a document, for which a caller may have given any
    root and any cause; a root that counts as false is none. -/
def documentFrom (e : Event) (root cause : Document) : Document :=
  e.documentWith (if root.truthy then root else .str e.root) cause

end Event

end Cascade
