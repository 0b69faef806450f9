-- SUMMARY: A map from names to facts: look-up, assignment, erasure and the overlay of one map on another.
import Std.Data.ExtTreeMap
import Cascade.Fact.Reading

/-! # Maps of facts

A map of facts has no history: two maps that give the same fact for every name
are equal. Its names are listed in increasing order. -/

namespace Cascade

/-- Facts by their names. -/
structure Facts where
  map : Std.ExtTreeMap String Fact

namespace Facts

def empty : Facts := ⟨∅⟩

instance : EmptyCollection Facts := ⟨empty⟩

instance : Inhabited Facts := ⟨empty⟩

def get? (m : Facts) (name : String) : Option Fact := m.map.get? name

/-- What a key reads as: only names have facts. -/
def at? (m : Facts) : Key → Option Fact
  | .name s => m.get? s
  | .other _ => none

def insert (m : Facts) (name : String) (f : Fact) : Facts := ⟨m.map.insert name f⟩

/-- Takes a name away. -/
def erase (m : Facts) (name : String) : Facts := ⟨m.map.erase name⟩

/-- Makes a key mean a fact, or nothing. Only names can mean something. -/
def assign (key : Key) (content : Option Fact) (m : Facts) : Facts :=
  match key, content with
  | .name s, some f => m.insert s f
  | .name s, none => m.erase s
  | .other _, _ => m

def size (m : Facts) : Nat := m.map.size

def isEmpty (m : Facts) : Bool := m.map.isEmpty

def names (m : Facts) : List String := m.map.keys

/-- The names and their facts, in increasing order of the names. -/
def toList (m : Facts) : List (String × Fact) := m.map.toList

/-- The facts of a list, where a later one wins. -/
def ofList (items : List (String × Fact)) : Facts :=
  items.foldl (fun m (name, f) => m.insert name f) ∅

/-- The facts of one map over those of another: where both have a fact, that
    of the upper one. -/
def overlay (upper lower : Facts) : Facts :=
  upper.toList.foldl (fun m (name, f) => m.insert name f) lower

def toDocument (m : Facts) : Document :=
  .dict (m.toList.map fun (name, f) => (name, f.toDocument))

/-! ## Look-up laws -/

/-- Two maps that give the same fact for every name are equal. -/
@[ext]
theorem ext {m n : Facts} (h : ∀ name, m.get? name = n.get? name) : m = n := by
  cases m with
  | mk m =>
    cases n with
    | mk n => exact congrArg mk (Std.ExtTreeMap.ext_getElem? fun {name} => h name)

@[simp]
theorem get?_empty (name : String) : (∅ : Facts).get? name = none :=
  Std.ExtTreeMap.getElem?_empty

/-- An insertion changes what one name means. -/
theorem get?_insert (m : Facts) (name : String) (f : Fact) (other : String) :
    (m.insert name f).get? other = if name = other then some f else m.get? other := by
  simp [get?, insert, Std.ExtTreeMap.getElem?_insert]

/-- An erasure makes one name mean nothing. -/
theorem get?_erase (m : Facts) (name other : String) :
    (m.erase name).get? other = if name = other then none else m.get? other := by
  simp [get?, erase, Std.ExtTreeMap.getElem?_erase]

/-- An assignment to a name changes what that name means. -/
theorem get?_assign (m : Facts) (name : String) (content : Option Fact) (other : String) :
    (m.assign (.name name) content).get? other
      = if name = other then content else m.get? other := by
  cases content with
  | none => exact get?_erase m name other
  | some f => exact get?_insert m name f other

/-! ## Reading maps -/

/-- The name under which a datum may be stored: a text that is not empty. -/
def storable (key : Key) : Except Fault String :=
  match key with
  | .name s => if s = "" then .error (.mismatch .badKey) else .ok s
  | .other _ => .error (.mismatch .badKey)

/-- What an assignment of a datum to a key writes, if it may be written. -/
def assignment (key : Key) (value : Datum) : Except Fault (String × Fact) := do
  return (← storable key, ← value.toFact)

/-- The values of a record as callers hand them over. -/
def dataOf (fields : List (String × Document)) :
    Except Fault (List (String × Datum)) :=
  fields.mapM fun (name, d) => do return (name, ← Datum.ofDocument d)

/-- The facts of a list of names and values, all of which may be stored. -/
def ofData (items : List (String × Datum)) : Except Fault Facts :=
  items.foldlM (fun m (name, value) => do
    let (name, f) ← assignment (.name name) value
    return m.insert name f) ∅

/-- The facts of a record whose values are bare or tagged. All values are read
    before the first of them is stored. -/
def ofFields (fields : List (String × Document)) : Except Fault Facts := do
  ofData (← dataOf fields)

end Facts

end Cascade
