-- SUMMARY: Work on a store by a host that keeps logs and copies under names of its own.
import Cascade.Store.Command

/-! # Sessions

A host gives names to the logs that it opens and to the copies that it makes,
and refers to them by these names in later steps. A session is a store
together with what its host has named. -/

namespace Cascade

/-- Things by the names that a host gave them; the latest of a name counts. -/
abbrev Named (α : Type) := List (String × α)

namespace Named

variable {α : Type}

def get? (xs : Named α) (name : String) : Option α :=
  (xs.find? (·.1 = name)).map (·.2)

/-- The latest thing of a name, which has to be there. -/
def get (xs : Named α) (name : String) : Except Fault α :=
  match xs.get? name with
  | some a => .ok a
  | none => .error (.missingField name)

end Named

/-! ## The flat store -/

/-- A flat store with the logs and copies that its host has named. -/
structure Flat.Session where
  store : Flat
  logs : Named Nat
  copies : Named Facts

namespace Flat.Session

def ofFacts (facts : Facts) : Flat.Session := ⟨.ofFacts facts, [], []⟩

/-- What a host does with a flat store. -/
inductive Step where
  | call (c : Call)
  | attach (name : String)
  | detach
  | rollback (name : String)
  | logSize (name : String)
  | copy (name : String)
  | copied (name : String)
  | setCopied (name : String) (key : Document) (value : Document)
  | items
  | names
  | describe
  | contains (key : Document)

/-- The log of a name, which is opened when it is first asked for. -/
def logOf (name : String) : Attempt Flat.Session Nat := do
  let s ← get
  match s.logs.get? name with
  | some n => return n
  | none => do
    let n := s.store.journal.next
    set { s with
      store := { s.store with journal := s.store.journal.extend }
      logs := (name, n) :: s.logs }
    return n

def onStore (f : Flat → Flat) : Attempt Flat.Session Document := do
  modify fun s => { s with store := f s.store }
  return .null

def description (m : Facts) : String := s!"FactDatabase({m.size} facts)"

def Step.run : Step → Attempt Flat.Session Document
  | call c => do
    let command ← Attempt.ofExcept (Operation.resolve Flat.Command.table c)
    command.run.zoom Session.store fun store s => { s with store }
  | attach name => do
    let n ← logOf name
    onStore (Flat.attach (some n))
  | detach => onStore (Flat.attach none)
  | rollback name => do
    let n ← logOf name
    onStore (Flat.rollback n)
  | logSize name => do
    let n ← logOf name
    return .int ((← get).store.journal.entries n).length
  | copy name => do
    modify fun s => { s with copies := (name, s.store.facts) :: s.copies }
    return .null
  | copied name => do
    return (← Attempt.reading (·.copies.get name)).toDocument
  | setCopied name key value => do
    let m ← Attempt.reading (·.copies.get name)
    let value ← Attempt.ofExcept (Datum.ofDocument value)
    let (key, f) ← Attempt.ofExcept (Facts.assignment (.ofDocument key) value)
    modify fun s => { s with copies := (name, m.insert key f) :: s.copies }
    return .null
  | items => do
    return .list ((← get).store.facts.toList.map fun (k, f) => .list [.str k, f.toDocument])
  | names => do return .texts (← get).store.facts.names
  | describe => do return .str (description (← get).store.facts)
  | contains key => do
    return .bool ((← get).store.facts.at? (.ofDocument key)).isSome

end Flat.Session

/-! ## The layered store -/

/-- A layered store with the logs that its host has named. -/
structure Layered.Session where
  store : Layered
  logs : Named Nat

namespace Layered.Session

def ofFacts (facts : Facts) : Layered.Session := ⟨.ofFacts facts, []⟩

/-- What a host does with a layered store. -/
inductive Step where
  | call (c : Call)
  | checkpoint (name : String)
  | commit (name : String)
  | restore (name : String)
  | logSize (name : String)
  | items
  | layer (name : Datum)
  | contains (key : Document)
  | scopes
  | currentScope

def onStore {α : Type} (a : Attempt Layered α) : Attempt Layered.Session α :=
  a.zoom Session.store fun store s => { s with store }

def Step.run : Step → Attempt Layered.Session Document
  | call c => do
    let command ← Attempt.ofExcept (Operation.resolve Layered.Command.table c)
    onStore command.run
  | checkpoint name => do
    let n ← onStore Layered.checkpoint
    modify fun s => { s with logs := (name, n) :: s.logs }
    return .null
  | commit name => do
    let n ← Attempt.reading (·.logs.get name)
    onStore (Layered.Command.silently (Layered.commit n))
  | restore name => do
    let n ← Attempt.reading (·.logs.get name)
    onStore (Layered.Command.silently (Layered.restore n))
  | logSize name => do
    let n ← Attempt.reading (·.logs.get name)
    return .int ((← get).store.journal.entries n).length
  | items => do
    return .list ((← get).store.snapshot.toList.map fun (k, f) => .list [.str k, f.toDocument])
  | layer name => do
    return (← onStore (Layered.Command.factsOf (.ofDatum name))).toDocument
  | contains key => do
    return .bool ((← get).store.visible? (.ofDocument key)).isSome
  | scopes => do return .texts (← get).store.scopes
  | currentScope => do return .str (← get).store.currentScope

end Layered.Session

end Cascade
