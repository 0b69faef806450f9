-- SUMMARY: What a tick did: the events, rules and calls in their order, the issues it met, and what became of events that were left over.
import Cascade.Event.Basic
import Cascade.Report.Issue
import Cascade.Rule.Basic

/-! # Reports

A report tells what happened while events were drained: which events were
processed, which rules fired, which handlers were called and which events came
of it, each in order. Reports of steps that follow each other add up to the
report of all of them. Shown as a document, a report gives only the numbers. -/

namespace Cascade

/-- An action that a rule calls: its name, the rule, and all visible facts. -/
structure ActionCall where
  action : String
  rule : String
  facts : Facts

/-- What happened while events were drained. -/
structure Report where
  passes : Nat
  processed : List Event
  fired : List Rule
  calls : List ActionCall
  enqueued : List Event
  issues : List Issue
  exceeded : Bool
  dropped : List Event
  deferred : List Event

namespace Report

/-! ## Adding reports up -/

def empty : Report := ⟨0, [], [], [], [], [], false, [], []⟩

/-- What happened first and what happened then, together. -/
def append (a b : Report) : Report where
  passes := a.passes + b.passes
  processed := a.processed ++ b.processed
  fired := a.fired ++ b.fired
  calls := a.calls ++ b.calls
  enqueued := a.enqueued ++ b.enqueued
  issues := a.issues ++ b.issues
  exceeded := a.exceeded || b.exceeded
  dropped := a.dropped ++ b.dropped
  deferred := a.deferred ++ b.deferred

instance : Append Report := ⟨append⟩

@[simp]
theorem empty_append (r : Report) : empty ++ r = r := by
  change append empty r = r
  simp [append, empty]

@[simp]
theorem append_empty (r : Report) : r ++ empty = r := by
  change append r empty = r
  simp [append, empty]

theorem append_assoc (a b c : Report) : a ++ b ++ c = a ++ (b ++ c) := by
  change append (append a b) c = append a (append b c)
  simp [append, Nat.add_assoc, Bool.or_assoc]

@[simp]
theorem passes_append (a b : Report) : (a ++ b).passes = a.passes + b.passes := rfl

@[simp]
theorem processed_append (a b : Report) : (a ++ b).processed = a.processed ++ b.processed := rfl

@[simp]
theorem fired_append (a b : Report) : (a ++ b).fired = a.fired ++ b.fired := rfl

@[simp]
theorem calls_append (a b : Report) : (a ++ b).calls = a.calls ++ b.calls := rfl

@[simp]
theorem enqueued_append (a b : Report) : (a ++ b).enqueued = a.enqueued ++ b.enqueued := rfl

@[simp]
theorem issues_append (a b : Report) : (a ++ b).issues = a.issues ++ b.issues := rfl

@[simp]
theorem exceeded_append (a b : Report) : (a ++ b).exceeded = (a.exceeded || b.exceeded) := rfl

@[simp]
theorem dropped_append (a b : Report) : (a ++ b).dropped = a.dropped ++ b.dropped := rfl

@[simp]
theorem deferred_append (a b : Report) : (a ++ b).deferred = a.deferred ++ b.deferred := rfl

/-! ## Single things that happen -/

def pass : Report := { empty with passes := 1 }

def event (e : Event) : Report := { empty with processed := [e] }

def rule (r : Rule) : Report := { empty with fired := [r] }

def call (c : ActionCall) : Report := { empty with calls := [c] }

def output (e : Event) : Report := { empty with enqueued := [e] }

def issue (i : Issue) : Report := { empty with issues := [i] }

/-- Events were left over and given up. -/
def dropping (es : List Event) : Report := { empty with exceeded := true, dropped := es }

/-- Events were left over and kept for the next time. -/
def deferring (es : List Event) : Report := { empty with exceeded := true, deferred := es }

/-! ## Showing reports -/

/-- Whether there was nothing to do. -/
def idle (r : Report) : Bool := r.passes = 0

def toDocument (r : Report) : Document :=
  .dict
    [ ("events_processed", .int r.processed.length), ("rules_fired", .int r.fired.length),
      ("passes", .int r.passes), ("issues", .list (r.issues.map (·.toDocument))),
      ("cascade_exceeded", .bool r.exceeded), ("dropped", .int r.dropped.length),
      ("deferred", .int r.deferred.length), ("idle", .bool r.idle) ]

end Report

end Cascade
