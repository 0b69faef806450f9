-- SUMMARY: Facts: the six kinds of typed values that a store holds, their equality, their text and their documents.
import Cascade.Document.Literal

/-! # Facts

A fact is a value together with its kind. Two facts are equal only if they are
of one kind: the integer one and the float one are different facts. Floats
are equal as numbers, so the two zeros are equal.

Floats that are not a number are equal to nothing as numbers, but as facts
they are told apart. The one that documents write is one and the same fact
wherever it is written. An operation without a numeric result gives a new fact
each time, an **indeterminate** one. It is known by its birth, which is where
it was stored first, and stays the same fact when it is stored again. -/

namespace Cascade

inductive Kind where
  | int | float | bool | string | intList | stringList
  deriving DecidableEq, Repr

namespace Kind

def name : Kind → String
  | int => "int"
  | float => "float"
  | bool => "bool"
  | string => "string"
  | intList => "int_list"
  | stringList => "string_list"

def all : List Kind := [int, float, bool, string, intList, stringList]

def ofName? (s : String) : Option Kind := all.find? (·.name = s)

def isNumeric : Kind → Bool
  | int | float => true
  | _ => false

def isOrdered : Kind → Bool
  | int | float | string => true
  | _ => false

end Kind

/-- Where an indeterminate fact was stored first: its name then, and how many
    others had been stored first under that name before. -/
structure Birth where
  name : String
  nth : Nat
  deriving DecidableEq, Repr

/-- A typed value. An indeterminate fact that has not been stored has no birth
    yet. -/
inductive Fact where
  | int (n : Int)
  | float (x : Float)
  | indeterminate (birth : Option Birth)
  | bool (b : Bool)
  | string (s : String)
  | intList (ns : List Int)
  | stringList (ss : List String)
  deriving DecidableEq

namespace Fact

def kind : Fact → Kind
  | int _ => .int
  | float _ | indeterminate _ => .float
  | bool _ => .bool
  | string _ => .string
  | intList _ => .intList
  | stringList _ => .stringList

/-- The fact that a float operation results in. -/
def ofResult (x : Float) : Fact := if x.isNaN then indeterminate none else float x

/-- Whether two facts are equal as values: the same fact, or floats that are
    equal as numbers. Before it is stored an indeterminate fact is equal to
    none. -/
def same : Fact → Fact → Bool
  | float x, float y => x == y || x = y
  | indeterminate b, indeterminate c => b.isSome && b = c
  | a, b => a = b

/-- Whether what is stored, if anything, is equal to a fact. -/
def isSame? (stored : Option Fact) (f : Fact) : Bool :=
  match stored with
  | some g => same g f
  | none => false

def exactValue? : Fact → Option Exact
  | int n => some (.ofInt n)
  | float x => some (.ofFloat x)
  | indeterminate _ => some .nan
  | _ => none

/-- The value of a fact, without its kind. -/
def payload : Fact → Document
  | int n => .int n
  | float x => .float x
  | indeterminate _ => .float (0.0 / 0.0)
  | bool b => .bool b
  | string s => .str s
  | intList ns => .list (ns.map .int)
  | stringList ss => .texts ss

def toDocument (f : Fact) : Document :=
  .dict [("kind", .str f.kind.name), ("value", f.payload)]

def text : Fact → String
  | bool b => if b then "true" else "false"
  | f => f.payload.literal

/-- A list as it stands in the literal of a fact. -/
def tupleLiteral (items : List Document) : String :=
  match items with
  | [d] => "(" ++ d.literal ++ ",)"
  | ds => "(" ++ ", ".intercalate (Document.literals ds) ++ ")"

def literal (f : Fact) : String :=
  let value :=
    match f.payload with
    | .list items => tupleLiteral items
    | d => d.literal
  "FactValue(kind=" ++ Text.quoted f.kind.name ++ ", value=" ++ value ++ ")"

/-- The value of a fact of the given kind. -/
def payload? (k : Kind) (f : Fact) : Document :=
  if f.kind = k then f.payload else .null

end Fact

end Cascade
