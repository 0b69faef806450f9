-- SUMMARY: What callers hand over: a document or a finished fact, and the keys by which facts are asked for.
import Cascade.Fact.Basic

/-! # Data and keys

A caller passes either a document, still to be read as a fact, or a fact. A
**key** is what stands where the name of a fact belongs. Only names are ever
stored, so asking for any other datum finds nothing, and a list or a record
cannot even be asked for. -/

namespace Cascade

/-- A value handed over by a caller. -/
inductive Datum where
  | document (d : Document)
  | fact (f : Fact)
  deriving Inhabited

namespace Datum

def text (s : String) : Datum := .document (.str s)

def null : Datum := .document .null

def literal : Datum → String
  | document d => d.literal
  | fact f => f.literal

/-- The text of a datum; a text stands for itself. -/
def plain : Datum → String
  | document d => d.plain
  | fact f => f.text

def truthy : Datum → Bool
  | document d => d.truthy
  | fact _ => true

def isNull : Datum → Bool
  | document d => d.isNull
  | fact _ => false

/-- Whether a datum may serve as the key of a look-up. -/
def isScalar : Datum → Bool
  | document d => d.isScalar
  | fact _ => true

def toDocument : Datum → Document
  | document d => d
  | fact f => f.toDocument

def text? : Datum → Option String
  | document d => d.text?
  | fact _ => none

def same : Datum → Datum → Bool
  | document d, document e => d.same e
  | fact f, fact g => f.same g
  | _, _ => false

end Datum

/-- What stands where the name of a fact belongs. -/
inductive Key where
  | name (text : String)
  | other (datum : Datum)

namespace Key

/-- The key that a datum is; a text is a name. -/
def ofDatum : Datum → Key
  | .document (.str s) => name s
  | d => other d

def ofDocument (d : Document) : Key := ofDatum (.document d)

def toDatum : Key → Datum
  | name s => .text s
  | other d => d

def toDocument (k : Key) : Document := k.toDatum.toDocument

/-- The text of a key. -/
def plain (k : Key) : String := k.toDatum.plain

def literal (k : Key) : String := k.toDatum.literal

def same (k l : Key) : Bool := k.toDatum.same l.toDatum

instance : Coe String Key := ⟨name⟩

end Key

end Cascade
