-- SUMMARY: Rule sets: the facts and rules of a document, built from its checked form, and rule sets as documents.
import Cascade.Document.Reader
import Cascade.Rule.Record
import Cascade.RuleSet.Schema

/-! # Rule sets

A rule set holds initial facts and rules that are fully read, so a malformed
rule fails the whole set. A rule without a name is named after its event and
its place in the document. -/

namespace Cascade

/-- Initial facts in the order of their document, and rules. -/
structure RuleSet where
  facts : List (String × Fact)
  rules : List Rule

namespace RuleSet

def toDocument (rs : RuleSet) : Document :=
  .dict
    [ ("facts", .dict (rs.facts.map fun (name, f) => (name, f.toDocument))),
      ("rules", .list (rs.rules.map (·.toDocument))) ]

/-! ## Modifications -/

def Source.build : Source → Except Fault ValueSpec
  | expr text => do return .computed (← Expr.parse text)
  | value d => do return .constant (← Fact.ofDocument d)

/-- An amount: texts write expressions. -/
def amountOf : Document → Except Fault ValueSpec
  | .str source => do return .computed (← Expr.parse source)
  | d => do return .constant (← Fact.ofBare d)

def EffectSpec.build : EffectSpec → Except Fault Effect
  | set source => do return .set (← source.build)
  | setIfChanged source outputs => do
    return .setIfChanged (← source.build) (outputs.map .str)
  | increment amount => do return .increment (← amountOf amount)
  | decrement amount => do return .decrement (← amountOf amount)
  | combine op operand => do return .combine op (← amountOf operand)
  | remove => .ok .remove
  | toggle => .ok .toggle

def ModificationSpec.build (m : ModificationSpec) : Except Fault Modification := do
  return ⟨.name m.key, m.layer.map .named, ← m.effect.build⟩

/-! ## Rules -/

/-- A number with at least three digits. -/
def threeDigits (n : Nat) : String :=
  let ds := Nat.toDigits 10 n
  String.ofList (List.replicate (3 - ds.length) '0' ++ ds)

/-- The name of a rule that has none: its event, with underscores for colons,
    and its number. -/
def defaultId (event : String) (index : Nat) : String :=
  let plain := event.map fun c => if c = ':' then '_' else c
  "rule_" ++ plain ++ "_" ++ threeDigits index

/-- The condition of a rule: first the one of the older form, if there is one,
    then the expressions; all have to hold. The expressions are read first. -/
def RuleSpec.buildCondition (r : RuleSpec) : Except Fault Condition := do
  let parts ← r.conditions.mapM Condition.ofText
  match r.condition with
  | none => return Condition.conjunction parts
  | some specs => do
    let first := Condition.conjunction (← ConditionSpec.buildAll specs)
    return Condition.conjunction (first :: parts)

def RuleSpec.build (r : RuleSpec) (index : Nat) : Except Fault Rule := do
  let condition ← r.buildCondition
  let modifications ← r.modifications.mapM (·.build)
  Rule.Draft.rule {
    id := .str ((r.id.filter (· ≠ "")).getD (defaultId r.event index))
    event := .str r.event
    condition := .ready condition
    modifications := .ok (modifications.map .ready)
    actions := .texts r.actions
    outputs := .texts r.outputs
    consumption := .bool r.consumes
    priority := .int r.priority
    enablement := .bool r.enabled }

/-- What messages call a rule: its name, else its number. -/
def RuleSpec.label (r : RuleSpec) (index : Nat) : String :=
  (r.id.filter (· ≠ "")).getD s!"#{index}"

/-! ## Rule sets -/

/-- Names the fault of a part of a document, if the fault is one of the
    library's own. -/
def naming {α : Type} (wrap : Fault → Fault) (e : Except Fault α) : Except Fault α :=
  e.mapError fun f => if f.isOwn then wrap f else f

/-- The rule set that a checked one stands for: all facts first, then the
    rules in order. -/
def Spec.build (s : Spec) : Except Fault RuleSet := do
  let facts ← s.facts.mapM fun (name, d) => do
    return (name, ← naming (.badFact name) (Fact.ofDocument d))
  let rules ← s.rules.zipIdx.mapM fun (r, i) =>
    naming (.badRule (r.label i)) (r.build i)
  return ⟨facts, rules⟩

def ofDocument (d : Document) : Except Fault RuleSet := do
  (← Spec.ofDocument d).build

def ofText (text : String) : Except Fault RuleSet :=
  match Document.read? text with
  | some d => ofDocument d
  | none => .error (.refused .notJson)

/-- The rule set that a file with the given content writes. -/
def ofFile (path : String) (content : Option String) : Except Fault RuleSet :=
  match content with
  | some text => ofText text
  | none => .error (.refused (.noFile path))

end RuleSet

end Cascade
