import Cascade.Attempt
import Cascade.Condition.Basic
import Cascade.Condition.Record
import Cascade.Config
import Cascade.Datum
import Cascade.Dispatcher
import Cascade.Document.Basic
import Cascade.Document.Literal
import Cascade.Document.Reader
import Cascade.Engine.Basic
import Cascade.Engine.Report
import Cascade.Engine.Script
import Cascade.Engine.Tick
import Cascade.Event.Basic
import Cascade.Event.Queue
import Cascade.Expr.Basic
import Cascade.Expr.Parse
import Cascade.Expr.Record
import Cascade.Expr.Token
import Cascade.Expr.Value
import Cascade.Fact.Arithmetic
import Cascade.Fact.Basic
import Cascade.Fact.Quantity
import Cascade.Fact.Reading
import Cascade.Fault
import Cascade.Modification.Apply
import Cascade.Modification.Basic
import Cascade.Modification.Record
import Cascade.Number.Exact
import Cascade.Number.Layout
import Cascade.Number.Shortest
import Cascade.Proofs.Attempt
import Cascade.Proofs.Engine.Accounts
import Cascade.Proofs.Engine.Acts
import Cascade.Proofs.Engine.Beats
import Cascade.Proofs.Engine.Bystanders
import Cascade.Proofs.Engine.Copying
import Cascade.Proofs.Engine.Depths
import Cascade.Proofs.Engine.Independent
import Cascade.Proofs.Engine.Kin
import Cascade.Proofs.Engine.Nameless
import Cascade.Proofs.Engine.Passes
import Cascade.Proofs.Engine.Ready
import Cascade.Proofs.Engine.Runs
import Cascade.Proofs.Engine.Settling
import Cascade.Proofs.Engine.Tallies
import Cascade.Proofs.Engine.Transaction
import Cascade.Proofs.Engine.Turns
import Cascade.Proofs.Expr.Derived
import Cascade.Proofs.Expr.Grammar
import Cascade.Proofs.Expr.Named
import Cascade.Proofs.Expr.Parsing
import Cascade.Proofs.Expr.Record
import Cascade.Proofs.Fact.Computed
import Cascade.Proofs.Fact.Reading
import Cascade.Proofs.Modification.Footprint
import Cascade.Proofs.Modification.Writes
import Cascade.Proofs.Number.Exact
import Cascade.Proofs.Outcome
import Cascade.Proofs.Registry.Stations
import Cascade.Proofs.Registry.Thinned
import Cascade.Proofs.Rule.Reads
import Cascade.Proofs.Rule.Record
import Cascade.Proofs.Rule.Sound
import Cascade.Proofs.Store.Agreement
import Cascade.Proofs.Store.Cautious
import Cascade.Proofs.Store.Failing
import Cascade.Proofs.Store.Restoring
import Cascade.Proofs.Store.Undo
import Cascade.Proofs.Store.Writing
import Cascade.Registry.Basic
import Cascade.Registry.Precedence
import Cascade.Report.Issue
import Cascade.Rule.Basic
import Cascade.Rule.Record
import Cascade.RuleSet.Basic
import Cascade.RuleSet.Condition
import Cascade.RuleSet.Schema
import Cascade.Store.Call
import Cascade.Store.Command
import Cascade.Store.Facts
import Cascade.Store.Flat
import Cascade.Store.Journal
import Cascade.Store.Layered
import Cascade.Store.Place
import Cascade.Store.Scopes
import Cascade.Store.Session
import Cascade.Store.Writes
import Cascade.Text.Blank
import Cascade.Text.Digit
import Cascade.Text.Integer
import Cascade.Text.Printable
import Cascade.Text.Quoted
import Cascade.Proofs.Engine.Contexts
import Cascade.Proofs.Modification.Fitting
import Cascade.Proofs.Engine.Isolation
import Cascade.Proofs.Registry.Sorting
import Cascade.Proofs.Engine.Kinds
import Cascade.Proofs.Expr.Cursor
import Cascade.Proofs.Expr.Lexing
import Cascade.Proofs.Expr.Displaced
import Cascade.Proofs.Expr.Layout
import Cascade.Proofs.Expr.Slices
import Cascade.Proofs.Expr.Spacing
import Cascade.Proofs.Expr.Words
import Cascade.Proofs.Expr.Printing
import Cascade.Proofs.Expr.Strict
import Cascade.Proofs.Registry.Changes
import Cascade.Proofs.Engine.Dispatches
import Cascade.Proofs.Engine.Trials
import Cascade.Proofs.Engine.Handlers
import Cascade.Proofs.Engine.Payloads
import Cascade.Proofs.Engine.Provenance
import Cascade.Proofs.Modification.Course
import Cascade.Proofs.Modification.Conditional
import Cascade.Proofs.Engine.Seeds
import Cascade.Proofs.Registry.History
import Cascade.Proofs.Engine.Rewrites
import Cascade.Proofs.Registry.Matches
import Cascade.Proofs.Registry.Batches
import Cascade.Proofs.Registry.Numbered
import Cascade.Proofs.Condition.Formula
import Cascade.Proofs.Store.Visible
import Cascade.Proofs.Expr.References
import Cascade.Proofs.Expr.Kinds
import Cascade.Proofs.RuleSet.Conditions
import Cascade.Proofs.RuleSet.Conjunctions
import Cascade.Proofs.RuleSet.Refusals
import Cascade.Proofs.RuleSet.Building
import Cascade.Proofs.RuleSet.Defaults
import Cascade.Proofs.RuleSet.Written
import Cascade.Proofs.RuleSet.Rereading
import Cascade.Proofs.Store.Holding
import Cascade.Proofs.Store.Moving
import Cascade.Proofs.Store.Replaying
import Cascade.Proofs.Store.Committing
import Cascade.Proofs.Fact.Division
import Cascade.Proofs.Modification.Division
