-- SUMMARY: Writes to a layered store: setting, counting, arithmetic, bounds, removal, and moving facts between layers.
import Cascade.Store.Layered

/-! # Writes

A write names the map it goes to: the innermost layer or the global map. What
it computes with is read through all layers, so a sum that starts from a
global fact can end in a local one. Every operation works out the fact it
writes before it writes it. -/

namespace Cascade

/-- A map that a write can go to: the innermost layer, or the global map. -/
inductive LayerName where
  | inner
  | global
  deriving DecidableEq, Repr

namespace LayerName

def text : LayerName → String
  | inner => "local"
  | global => "global"

/-- The slot of a map. -/
def slot (name : LayerName) (db : Layered) : Slot :=
  match name with
  | inner => db.innerSlot
  | global => .global

end LayerName

/-- What a caller names as a map: one that exists, or anything else. -/
inductive LayerRef where
  | named (name : LayerName)
  | other (given : Datum)

namespace LayerRef

/-- The map that a datum names. -/
def ofDatum : Datum → LayerRef
  | .document (.str "local") => named .inner
  | .document (.str "global") => named .global
  | d => other d

def toDatum : LayerRef → Datum
  | named name => .text name.text
  | other d => d

/-- The slot of a map, which has to exist. -/
def slot (layer : LayerRef) (db : Layered) : Except Fault Slot :=
  match layer with
  | named name => .ok (name.slot db)
  | other d => .error (.badArgument (.layer d))

end LayerRef

namespace Layered

/-! ## Setting -/

/-- The map that a write goes to. -/
def target (layer : LayerRef) : Attempt Layered (Place Layered) :=
  Attempt.reading fun db => place <$> layer.slot db

def innermost : Attempt Layered (Place Layered) := target (.named .inner)

/-- Makes a key mean a value in a map. -/
def store (key : Key) (value : Datum) (layer : LayerRef) : Attempt Layered Unit := do
  (← target layer).set key value

/-- Makes a key mean a value unless it already does. A local write asks what
    the key reads as, a global one what the global map says. -/
def setIfChanged (key : Key) (value : Datum) (layer : LayerRef) :
    Attempt Layered Bool := do
  match layer with
  | .named .inner => do
    let visible ← Attempt.reading (·.read key)
    let f ← Attempt.ofExcept value.toFact
    if Fact.isSame? visible f then return false
    (← innermost).setIfChanged key (.fact f)
  | layer => do (← target layer).setIfChanged key value

/-! ## Arithmetic -/

/-- What a key reads as; a key that reads as nothing is unknown. -/
def require (key : Key) : Attempt Layered Fact := do
  match ← Attempt.reading (·.read key) with
  | some f => return f
  | none => throw (.unknownFact key)

/-- Writes what is computed once the map to write to is known. -/
def put (key : Key) (layer : LayerRef) (compute : Except Fault Fact) :
    Attempt Layered Unit := do
  let p ← target layer
  p.set key (.fact (← Attempt.ofExcept compute))

/-- Adds an amount to an integer fact; a missing one counts as zero. -/
def increment (key : Key) (amount : Datum) (layer : LayerRef) :
    Attempt Layered Unit := do
  match (← Attempt.reading (·.read key)).getD (.int 0) with
  | .int n => put key layer (amount.addedTo n)
  | f => throw (.mismatch (.cannotIncrement key f.kind))

/-- Adds a value to a fact; a missing one becomes the value. -/
def add (key : Key) (amount : Datum) (layer : LayerRef) : Attempt Layered Unit := do
  match ← Attempt.reading (·.read key) with
  | none => put key layer amount.toFact
  | some f => put key layer (do Fact.arithmetic .add f (← amount.toFact))

/-- Adds the opposite of an amount. -/
def sub (key : Key) (amount : Datum) (layer : LayerRef) : Attempt Layered Unit := do
  add key (← Attempt.ofExcept amount.opposite) layer

/-- Replaces a fact by the result of an operator on it and a value. -/
def combine (op : Arithmetic) (key : Key) (value : Datum) (layer : LayerRef) :
    Attempt Layered Unit := do
  let f ← require key
  put key layer (do Fact.arithmetic op f (← value.toFact))

/-! ## Bounds -/

/-- Moves a number to the nearer of two bounds unless it lies between them; of
    equal numbers the bound wins. -/
def clamp (key : Key) (low high : Datum) (layer : LayerRef) :
    Attempt Layered Unit := do
  if ← Attempt.ofExcept (high.less low) then throw (.badArgument .clampBounds)
  let f ← require key
  if !f.kind.isNumeric then throw (.mismatch (.notNumeric f.kind))
  let below ← Attempt.ofExcept (high.least (.document f.payload))
  let clamped ← Attempt.ofExcept (low.greatest below)
  put key layer (if f.kind = .float then clamped.toFactOf .float else clamped.toFact)

/-- Wraps an integer into the half-open range between two bounds. -/
def wrap (key : Key) (low high : Datum) (layer : LayerRef) :
    Attempt Layered Unit := do
  if ← Attempt.ofExcept (high.atMost low) then throw (.badArgument .wrapBounds)
  match ← require key with
  | .int n => do
    let wrapped ← Attempt.ofExcept (Fact.wrapped n low high)
    put key layer ((Datum.document wrapped.payload).toFactOf .int)
  | f => throw (.mismatch (.cannotWrap key f.kind))

/-! ## Removing and moving -/

/-- Takes a key away from a map and gives what it meant there. -/
def remove (key : Key) (layer : LayerRef) : Attempt Layered (Option Fact) := do
  (← target layer).remove key

/-- Moves a fact of the innermost layer to the global map; says whether there
    was one. -/
def promote (key : Key) : Attempt Layered Bool := do
  match ← (← innermost).remove key with
  | none => return false
  | some f => do
    (place .global).set key (.fact f)
    return true

/-- Copies a fact of the innermost layer to the global map; says whether there
    was one. -/
def copy (key : Key) : Attempt Layered Bool := do
  match ← Attempt.reading ((← innermost).get key) with
  | none => return false
  | some f => do
    (place .global).set key (.fact f)
    return true

/-- Moves a fact of the global map to the innermost layer; says whether there
    was one. -/
def demote (key : Key) : Attempt Layered Bool := do
  match ← (place .global).remove key with
  | none => return false
  | some f => do
    (← innermost).set key (.fact f)
    return true

def clearInner : Attempt Layered Unit := do (← innermost).clear

def clearGlobal : Attempt Layered Unit := (place .global).clear

def clearAll : Attempt Layered Unit := do
  modify fun db =>
    db.layers.reverse.foldl (fun db l => (place (.layer l.serial)).cleared db) db
  clearGlobal

end Layered

end Cascade
