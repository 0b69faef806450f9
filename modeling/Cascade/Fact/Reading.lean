-- SUMMARY: Reading facts: from a value whose kind is named, from a bare value whose kind is inferred, and from a document of either form.
import Cascade.Fault

/-! # Reading facts

A document becomes a fact in two ways. With a named kind the value has to fit
that kind; bare, the value decides: truth values, integers, floats and texts
are facts of their own kind, a non-empty list of integers is an integer list,
and every other list of texts, the empty one too, is a text list. -/

namespace Cascade

/-- All integers of a list, if it holds nothing else. -/
def Document.ints? (items : List Document) : Option (List Int) := items.mapM Document.int?

/-- All texts of a list, if it holds nothing else. -/
def Document.texts? (items : List Document) : Option (List String) :=
  items.mapM Document.text?

/-- The elements of a document that can be gone through. -/
def Document.elements (d : Document) : Except Fault (List Document) :=
  match d.elements? with
  | some ds => .ok ds
  | none => .error .wrongType

namespace Fact

/-- The fault of a value that does not fit a kind. -/
def misfit (k : Kind) (d : Document) : Fault := .mismatch (.notOfKind k (.document d))

/-- The fact of a kind with a value; integers also fit a float. -/
def ofKind (k : Kind) (d : Document) : Except Fault Fact :=
  match k, d with
  | .int, .int n => .ok (.int n)
  | .float, .float x => .ok (.float x)
  | .float, .int n =>
    match floatOfInt? n with
    | some x => .ok (.float x)
    | none => .error .tooLarge
  | .bool, .bool b => .ok (.bool b)
  | .string, .str s => .ok (.string s)
  | .intList, .list items =>
    match Document.ints? items with
    | some ns => .ok (.intList ns)
    | none => .error (misfit k d)
  | .stringList, .list items =>
    match Document.texts? items with
    | some ss => .ok (.stringList ss)
    | none => .error (misfit k d)
  | _, _ => .error (misfit k d)

/-- The fact of a list kind whose items are gone through one by one. -/
def ofSequence (k : Kind) (d : Document) : Except Fault Fact :=
  match d.elements? with
  | none => .error .wrongType
  | some items =>
    (ofKind k (.list items)).mapError fun _ => .mismatch (.notSequenceOf k items)

def ofBare (d : Document) : Except Fault Fact :=
  match d with
  | .bool b => .ok (.bool b)
  | .int n => .ok (.int n)
  | .float x => .ok (.float x)
  | .str s => .ok (.string s)
  | .list items =>
    match items, Document.ints? items, Document.texts? items with
    | _ :: _, some ns, _ => .ok (.intList ns)
    | _, _, some ss => .ok (.stringList ss)
    | _, _, none => .error (.mismatch (.mixedList d))
  | .null | .dict _ => .error (.mismatch (.unsupported d))

/-- The fact that a record with a kind and a value writes. -/
def ofTagged (d : Document) : Except Fault Fact :=
  match d with
  | .dict fields =>
    match Document.field? fields "kind" with
    | none => .error (.mismatch .noKind)
    | some kind =>
      match kind.text?.bind Kind.ofName? with
      | some k => ofKind k ((Document.field? fields "value").getD .null)
      | none => .error (.mismatch (.unknownKind kind))
  | _ => .error (.mismatch .noKind)

end Fact

/-- Whether a document is a record with a kind. -/
def Document.isTagged (d : Document) : Bool := (d.get? "kind").isSome

/-- The fact of a document in either form. -/
def Fact.ofDocument (d : Document) : Except Fault Fact :=
  if d.isTagged then Fact.ofTagged d else Fact.ofBare d

namespace Datum

/-- A document as callers hand it over: a record with a kind is a fact. -/
def ofDocument (d : Document) : Except Fault Datum :=
  if d.isTagged then fact <$> Fact.ofTagged d else .ok (document d)

/-- The fact that a datum is or stands for. -/
def toFact : Datum → Except Fault Fact
  | document d => Fact.ofBare d
  | fact f => .ok f

/-- The fact of a kind made from a datum; a finished fact is no value. -/
def toFactOf (k : Kind) : Datum → Except Fault Fact
  | document d => Fact.ofKind k d
  | fact f => .error (.mismatch (.notOfKind k (.fact f)))

end Datum

end Cascade
