-- SUMMARY: Scopes and checkpoints of a layered store: pushing and popping layers, recording writes, and undoing or keeping them.
import Cascade.Store.Writes

/-! # Scopes and checkpoints

A scope pushes a layer and pops it with its facts. A checkpoint opens an undo
log that records every write from then on; at most one is open. Committing
ends the recording, restoring ends it as well and undoes what the log holds. A
log that is no longer open still holds its entries until they are undone. -/

namespace Cascade

namespace Layered

/-! ## Scopes -/

def pushed (name : String) (db : Layered) : Layered where
  global := db.global
  inner := ⟨db.serials, name, ∅⟩
  outer := db.inner :: db.outer
  serials := db.serials + 1
  births := db.births
  journal := db.journal
  descending := by
    have below := (List.pairwise_cons.mp db.descending).1
    refine List.pairwise_cons.mpr ⟨fun n hn => ?_, db.descending⟩
    rcases List.mem_cons.mp hn with rfl | hn
    · exact Nat.lt_succ_self _
    · exact Nat.lt_succ_of_lt (below n hn)

/-- The store without its innermost layer, if that is not the lowest one. -/
def popped? (db : Layered) : Option Layered :=
  match h : db.outer with
  | [] => none
  | below :: rest =>
    some
      { db with
        inner := below
        outer := rest
        descending := by
          have all := db.descending
          rw [h] at all
          exact all.sublist (List.Sublist.cons_cons _ (List.sublist_cons_self ..)) }

/-- Opens a layer for a scope. -/
def pushScope (scope : Datum) : Attempt Layered Unit := do
  match scope.text? with
  | some name =>
    if name = "" then throw (.badArgument .scope)
    modify (pushed name)
  | none => throw (.badArgument .scope)

/-- Drops the innermost layer and gives its facts. A scope that is named has
    to be the one that opened it; the lowest layer stays. -/
def popScope (scope : Datum) : Attempt Layered Facts := do
  let db ← get
  match db.popped? with
  | none => throw (.badPop .nothingPushed)
  | some rest => do
    if !scope.isNull && !scope.same (.text db.inner.scope) then
      throw (.badPop (.otherScope scope db.inner.scope))
    set rest
    return db.inner.facts

/-! ## Checkpoints -/

/-- Opens an undo log and gives its number. -/
def checkpoint : Attempt Layered Nat := do
  let db ← get
  if db.journal.active.isSome then throw .checkpointOpen
  let n := db.journal.next
  set { db with journal := db.journal.extend.activate (some n) }
  return n

/-- Ends the recording into a log, if it is the open one. -/
def closed (n : Nat) (db : Layered) : Layered :=
  if db.journal.active = some n then { db with journal := db.journal.activate none }
  else db

def undo (db : Layered) (e : Entry Slot) : Layered :=
  db.modifyAt e.place (·.assign e.key e.previous)

/-- Undoes the writes that a log holds, the newest first, and empties it. -/
def rolledBack (n : Nat) (db : Layered) : Layered :=
  let db' := (db.journal.entries n).foldl undo db
  { db' with journal := db'.journal.clear n }

/-- Keeps the writes recorded in a log. -/
def commit (n : Nat) : Attempt Layered Unit := modify (closed n)

/-- Undoes the writes recorded in a log, whether it is open or not. -/
def restore (n : Nat) : Attempt Layered Unit :=
  modify fun db => (db.closed n).rolledBack n

end Layered

end Cascade
