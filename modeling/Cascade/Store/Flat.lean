-- SUMMARY: The flat store: one map of facts and a journal that may be recording its writes.
import Cascade.Fact.Quantity
import Cascade.Store.Place

/-! # The flat store

One map of facts. Its writes go into whichever log is attached, if any, and
rolling a log back undoes the writes that the log holds and empties it. -/

namespace Cascade

/-- One map of facts and its journal. -/
structure Flat where
  facts : Facts
  journal : Journal Unit
  deriving Inhabited

namespace Flat

def ofFacts (facts : Facts) : Flat := ⟨facts, .empty⟩

/-- Makes a key mean a fact, or nothing, and records what it meant before. -/
def write (key : Key) (content : Option Fact) (s : Flat) : Flat where
  facts := s.facts.assign key content
  journal := s.journal.record ⟨(), key, s.facts.at? key⟩

def place : Place Flat := ⟨Flat.facts, write⟩

def read (s : Flat) (key : Key) : Except Fault (Option Fact) := place.get key s

/-- Adds an amount to an integer fact; a missing one becomes the amount. -/
def increment (key : Key) (amount : Datum) : Attempt Flat Unit := do
  match ← Attempt.reading (place.get key) with
  | none => do
    let f ← Attempt.ofExcept (amount.toFactOf .int)
    place.set key (.fact f)
  | some (.int n) => do
    let sum ← Attempt.ofExcept (amount.addedTo n)
    place.set key (.fact sum)
  | some f => throw (.mismatch (.cannotIncrement key f.kind))

/-- Makes a log take the writes, or none. -/
def attach (n : Option Nat) (s : Flat) : Flat :=
  { s with journal := s.journal.activate n }

/-- Undoes the writes that a log holds and empties it. -/
def rollback (n : Nat) (s : Flat) : Flat where
  facts := (s.journal.entries n).foldl (fun m e => m.assign e.key e.previous) s.facts
  journal := s.journal.clear n

end Flat

end Cascade
