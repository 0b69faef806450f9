-- SUMMARY: Undo logs: what each key held before it was written, kept per log and replayed to undo the writes.
import Cascade.Store.Facts

/-! # Journals

A log is a list of entries, the newest first; an entry says what one key of
one map held before a write. Replaying a log from its head brings every key
back to what it held before its first entry. Logs are numbered in the order in
which they were opened, and writes go to the active one, if there is one. -/

namespace Cascade

/-- What a key of a map held before it was written. -/
structure Entry (ι : Type) where
  place : ι
  key : Key
  previous : Option Fact

/-- All logs, by their numbers, and which of them takes the writes. -/
structure Journal (ι : Type) where
  logs : List (List (Entry ι))
  active : Option Nat

namespace Journal

variable {ι : Type}

def empty : Journal ι := ⟨[], none⟩

instance : Inhabited (Journal ι) := ⟨empty⟩

def entries (j : Journal ι) (n : Nat) : List (Entry ι) := (j.logs[n]?).getD []

def next (j : Journal ι) : Nat := j.logs.length

def extend (j : Journal ι) : Journal ι := { j with logs := j.logs ++ [[]] }

def shrink (j : Journal ι) : Journal ι := { j with logs := j.logs.dropLast }

/-- Makes a log take the writes, or none. -/
def activate (n : Option Nat) (j : Journal ι) : Journal ι := { j with active := n }

/-- Puts an entry into the active log. -/
def record (e : Entry ι) (j : Journal ι) : Journal ι :=
  match j.active with
  | some n => { j with logs := j.logs.modify n (e :: ·) }
  | none => j

def clear (n : Nat) (j : Journal ι) : Journal ι :=
  { j with logs := j.logs.modify n fun _ => [] }

end Journal

/-- A map of facts inside a state: how it is read, and how a key of it is
    written so that the journal of the state knows. -/
structure Place (σ : Type) where
  facts : σ → Facts
  write : Key → Option Fact → σ → σ

end Cascade
