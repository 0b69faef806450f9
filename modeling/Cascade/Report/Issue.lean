-- SUMMARY: Issues: the problems that a running engine survives, how they read, and where they are reported.
import Cascade.Fault

/-! # Issues

An issue tells of a problem that did not stop the engine. The engine words its
issues and names the rule and the event by texts, but a caller may report an
issue with any values there. Issues go to a **sink**, which keeps them, logs
them, or passes them on to further sinks. -/

namespace Cascade

inductive IssueKind where
  | unknownFact | typeMismatch | divisionByZero | cascadeDepthExceeded | actionFailed
  deriving DecidableEq, Repr

namespace IssueKind

def name : IssueKind → String
  | unknownFact => "unknown_fact"
  | typeMismatch => "type_mismatch"
  | divisionByZero => "division_by_zero"
  | cascadeDepthExceeded => "cascade_depth_exceeded"
  | actionFailed => "action_failed"

def all : List IssueKind :=
  [unknownFact, typeMismatch, divisionByZero, cascadeDepthExceeded, actionFailed]

def ofName? (s : String) : Option IssueKind := all.find? (·.name = s)

/-- The kind of issue that a fault of evaluation is. -/
def ofFault : Fault → IssueKind
  | .unknownFact _ => unknownFact
  | .divisionByZero | .moduloByZero => divisionByZero
  | _ => typeMismatch

end IssueKind

/-- A problem that the engine survived, with the rule and the event that it is
    about, if it is about any. -/
structure Issue where
  kind : IssueKind
  message : Document
  rule : Document
  event : Document

namespace Issue

/-- The issue that a text tells of. -/
def ofText (kind : IssueKind) (message : String) (rule event : Option String) : Issue :=
  ⟨kind, .str message, .ofText? rule, .ofText? event⟩

def toDocument (i : Issue) : Document :=
  .dict
    [ ("kind", .str i.kind.name), ("message", i.message), ("rule_id", i.rule),
      ("event_id", i.event) ]

def same (i j : Issue) : Bool := i.toDocument.same j.toDocument

/-- The issue that a call with keyword arguments makes; its kind has to be one
    of those there are. -/
def ofFields (fields : List (String × Document)) : Except Fault Issue := do
  let names := ["kind", "message", "rule_id", "event_id", "detail"]
  if fields.any fun (name, _) => name ∉ names then throw .wrongType
  match Document.field? fields "kind", Document.field? fields "message" with
  | some kind, some message =>
    match kind.text?.bind IssueKind.ofName? with
    | some k =>
      let about (name : String) := (Document.field? fields name).getD .null
      return ⟨k, message, about "rule_id", about "event_id"⟩
    | none => throw (.badArgument (.issueKind kind))
  | _, _ => throw .wrongType

end Issue

/-! ## Logs -/

inductive LogLevel where
  | debug | info | warning | error | critical
  deriving DecidableEq, Repr

namespace LogLevel

def name : LogLevel → String
  | debug => "debug"
  | info => "info"
  | warning => "warning"
  | error => "error"
  | critical => "critical"

def number : LogLevel → Nat
  | debug => 10
  | info => 20
  | warning => 30
  | error => 40
  | critical => 50

def all : List LogLevel := [debug, info, warning, error, critical]

def ofName? (s : String) : Option LogLevel := all.find? (·.name = s)

end LogLevel

/-- A log entry: its level, its text, and further values by name. -/
structure LogEntry where
  level : LogLevel
  message : Document
  fields : List (String × Document)

def LogEntry.toDocument (e : LogEntry) : Document :=
  .list [.str e.level.name, e.message, .dict e.fields]

/-- The log entry of an issue: an overflow is an error, all else a warning. What
    the issue is not about is left out. -/
def Issue.logEntry (i : Issue) : LogEntry where
  level := if i.kind = .cascadeDepthExceeded then .error else .warning
  message := i.message
  fields :=
    [("kind", .str i.kind.name), ("rule_id", i.rule), ("event_id", i.event)].filter
      fun (_, d) => !d.isNull

/-! ## Sinks -/

/-- Where issues go: they are kept, logged to a log of the sink's own, logged
    to the common log, or passed on. -/
inductive Sink where
  | collecting (issues : List Issue)
  | recording (entries : List LogEntry)
  | logging
  | fanOut (sinks : List Sink)

namespace Sink

mutual
/-- A sink after an issue, and what goes to the common log. -/
def report (i : Issue) : Sink → Sink × List LogEntry
  | collecting issues => (collecting (issues ++ [i]), [])
  | recording entries => (recording (entries ++ [i.logEntry]), [])
  | logging => (logging, [i.logEntry])
  | fanOut sinks =>
    let (sinks, log) := reportAll i sinks
    (fanOut sinks, log)

def reportAll (i : Issue) : List Sink → List Sink × List LogEntry
  | [] => ([], [])
  | s :: ss =>
    let (s, log) := report i s
    let (ss, more) := reportAll i ss
    (s :: ss, log ++ more)
end

def kinds : Sink → List String
  | collecting issues => issues.map (·.kind.name)
  | _ => []

/-- A sink that keeps issues, with all of them forgotten. -/
def cleared : Sink → Sink
  | collecting _ => collecting []
  | s => s

end Sink

end Cascade
