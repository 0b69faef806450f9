-- SUMMARY: The operations on one map of facts inside a state, every write of which is recorded in the journal of the state.
import Cascade.Attempt
import Cascade.Store.Journal

/-! # Places

A place is one map of facts inside a state. Each operation looks at all its
arguments before it writes, so one that fails has written nothing. -/

namespace Cascade

namespace Place

variable {σ : Type}

/-- What a key reads as; a list or a record cannot be asked for. -/
def get (p : Place σ) (key : Key) (s : σ) : Except Fault (Option Fact) :=
  if key.toDatum.isScalar then .ok ((p.facts s).at? key) else .error .wrongType

def contains (p : Place σ) (key : Key) (s : σ) : Except Fault Bool :=
  (p.get key s).map (·.isSome)

def set (p : Place σ) (key : Key) (value : Datum) : Attempt σ Unit := do
  let (name, f) ← Attempt.ofExcept (Facts.assignment key value)
  modify (p.write (.name name) (some f))

/-- Makes a key mean a value, unless it already does; says whether it wrote. -/
def setIfChanged (p : Place σ) (key : Key) (value : Datum) : Attempt σ Bool := do
  let f ← Attempt.ofExcept value.toFact
  let stored ← Attempt.reading (p.get key)
  if Fact.isSame? stored f then return false
  p.set key (.fact f)
  return true

/-- Takes a key away and gives what it meant. -/
def remove (p : Place σ) (key : Key) : Attempt σ (Option Fact) := do
  let stored ← Attempt.reading (p.get key)
  modify (p.write key none)
  return stored

/-- The state after every key has been taken away. -/
def cleared (p : Place σ) (s : σ) : σ :=
  (p.facts s).names.foldl (fun s name => p.write (.name name) none s) s

def clear (p : Place σ) : Attempt σ Unit := modify p.cleared

end Place

end Cascade
