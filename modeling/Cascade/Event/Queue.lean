-- SUMMARY: The queue of pending events: first in, first out, drained as a whole.
import Cascade.Event.Basic

/-! # The queue

Events wait in the order in which they came. Draining takes all of them at
once, so what is enqueued while they are processed waits for the next time. -/

namespace Cascade

/-- The pending events, the oldest first. -/
structure Queue where
  pending : List Event
  deriving Inhabited

namespace Queue

def empty : Queue := ⟨[]⟩

def enqueue (es : List Event) (q : Queue) : Queue := ⟨q.pending ++ es⟩

def push (e : Event) (q : Queue) : Queue := q.enqueue [e]

def drain (q : Queue) : List Event × Queue := (q.pending, empty)

def size (q : Queue) : Nat := q.pending.length

def isEmpty (q : Queue) : Bool := q.pending.isEmpty

def ids (q : Queue) : List String := q.pending.map (·.id)

/-- The roots of the pending events, each once, in the order of the queue. -/
def roots (q : Queue) : List String :=
  q.pending.foldl (fun seen e => if e.root ∈ seen then seen else seen ++ [e.root]) []

end Queue

end Cascade
