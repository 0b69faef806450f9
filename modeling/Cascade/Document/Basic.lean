-- SUMMARY: Documents: nested values of texts, numbers, lists and records as they are exchanged, with truth, equality and look-up.
import Cascade.Number.Exact

/-! # Documents

A document is a value as it is written down: rules, facts and settings arrive
as documents and are shown as documents. A record keeps its fields in the
order in which they were written. Integers have any size and are kept apart
from floats. -/

namespace Cascade

/-- A written value. -/
inductive Document where
  | null
  | bool (b : Bool)
  | int (n : Int)
  | float (x : Float)
  | str (s : String)
  | list (items : List Document)
  | dict (fields : List (String × Document))
  deriving Inhabited

namespace Document

/-! ## Fields -/

def field? (fields : List (String × Document)) (key : String) : Option Document :=
  (fields.find? (·.1 = key)).map (·.2)

/-- The field of a record under a key; what is no record has none. -/
def get? (d : Document) (key : String) : Option Document :=
  match d with
  | .dict fields => field? fields key
  | _ => none

/-- Writes a field: in place if the key is there, else at the end. -/
def putField {α : Type} (key : String) (value : α) :
    List (String × α) → List (String × α)
  | [] => [(key, value)]
  | (k, v) :: rest =>
    if k = key then (k, value) :: rest else (k, v) :: putField key value rest

/-! ## Truth and equality -/

/-- Whether a document counts as true: everything but the empty and the zero
    values. -/
def truthy : Document → Bool
  | .null => false
  | .bool b => b
  | .int n => n ≠ 0
  | .float x => x != 0.0
  | .str s => s ≠ ""
  | .list items => !items.isEmpty
  | .dict fields => !fields.isEmpty

/-- The exact value of a number; a truth value counts as zero or one. -/
def exactValue? : Document → Option Exact
  | .bool b => some (.ofInt (if b then 1 else 0))
  | .int n => some (.ofInt n)
  | .float x => some (.ofFloat x)
  | _ => none

mutual
/-- Whether two documents are equal: numbers by their exact values, records
    by their fields in any order. -/
def same : Document → Document → Bool
  | .null, .null => true
  | .str s, .str t => s = t
  | .list xs, .list ys => sameItems xs ys
  | .dict fs, .dict gs => fs.length = gs.length && sameFields fs gs
  | d, e =>
    match d.exactValue?, e.exactValue? with
    | some a, some b => a.compare? b = some .eq || a = b
    | _, _ => false

/-- Whether two lists hold equal documents in the same order. -/
def sameItems : List Document → List Document → Bool
  | [], [] => true
  | x :: xs, y :: ys => same x y && sameItems xs ys
  | _, _ => false

/-- Whether every field of the first list has an equal one in the second. -/
def sameFields : List (String × Document) → List (String × Document) → Bool
  | [], _ => true
  | (k, v) :: rest, gs =>
    (match field? gs k with
      | some w => same v w
      | none => false) && sameFields rest gs
end

def isNull : Document → Bool
  | .null => true
  | _ => false

/-- Whether a document may serve as the key of a look-up: lists and records
    may not. -/
def isScalar : Document → Bool
  | .list _ | .dict _ => false
  | _ => true

def typeName : Document → String
  | .null => "NoneType"
  | .bool _ => "bool"
  | .int _ => "int"
  | .float _ => "float"
  | .str _ => "str"
  | .list _ => "list"
  | .dict _ => "dict"

/-- The integer of a document that is one; a truth value is none. -/
def int? : Document → Option Int
  | .int n => some n
  | _ => none

def text? : Document → Option String
  | .str s => some s
  | _ => none

/-- What a document gives when it is gone through: a list its items, a text its
    characters, a record the names of its fields. -/
def elements? : Document → Option (List Document)
  | .list items => some items
  | .str s => some (s.toList.map fun c => .str c.toString)
  | .dict fields => some (fields.map fun (k, _) => .str k)
  | _ => none

def texts (ss : List String) : Document := .list (ss.map .str)

/-- A text or nothing as a document. -/
def ofText? : Option String → Document
  | some s => .str s
  | none => .null

end Document

end Cascade
