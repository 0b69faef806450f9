-- SUMMARY: The rule registry: rules by scope, which scopes are active, and which rules an event matches.
import Cascade.Registry.Precedence

/-! # The registry

Rules are kept by scope, in the order of registration. The rules of the global
scope always match; those of any other scope match while it is active, and
stay for its next activation. Within a scope no two rules have one name. -/

namespace Cascade

/-- What happens to a name that a batch of rules has more than once. -/
inductive DuplicatePolicy where
  | error
  | suffix
  deriving DecidableEq, Repr

def DuplicatePolicy.name : DuplicatePolicy → String
  | error => "error"
  | suffix => "suffix"

def DuplicatePolicy.ofName? : String → Option DuplicatePolicy
  | "error" => some error
  | "suffix" => some suffix
  | _ => none

/-- The policy of a name that there has to be. -/
def DuplicatePolicy.named (name : Document) : Except Fault DuplicatePolicy :=
  match name.text?.bind ofName? with
  | some policy => .ok policy
  | none => .error (.badArgument (.policy name))

/-- Rules by scope, in the order in which the scopes came up, and the active
    scopes in the order of their activation. -/
structure Registry where
  scopes : List (String × List Rule)
  active : List String

namespace Registry

/-- The scope whose rules always match. -/
def globalScope : String := "global"

/-- No rules; only the global scope is there. -/
def empty : Registry := ⟨[(globalScope, [])], []⟩

instance : Inhabited Registry := ⟨empty⟩

/-! ## Reading -/

/-- The rules of a scope; a scope that is not there has none. -/
def rulesOf (r : Registry) (scope : String) : List Rule :=
  ((r.scopes.find? (·.1 = scope)).map (·.2)).getD []

def get? (r : Registry) (id scope : String) : Option Rule :=
  (r.rulesOf scope).find? (·.id = id)

/-- Whether the rules of a scope match. -/
def isActive (r : Registry) (scope : String) : Bool :=
  scope = globalScope || scope ∈ r.active

def size (r : Registry) : Nat := (r.scopes.flatMap (·.2)).length

/-- The enabled rules for an event in given scopes: the global scope first,
    then the scopes in order. -/
def matching (r : Registry) (event : String) (scopes : List String) : List Rule :=
  (globalScope :: scopes.filter (· ≠ globalScope)).flatMap fun scope =>
    (r.rulesOf scope).filter fun rule => rule.isEnabled && rule.event = event

/-- The enabled rules for an event in given scopes, those of higher priority
    first; rules of one priority stay in order. -/
def rulesForEventIn (r : Registry) (event : String) (scopes : List String) :
    Except Fault (List Rule) :=
  Rule.inOrder (r.matching event scopes)

def rulesForEvent (r : Registry) (event : String) : Except Fault (List Rule) :=
  r.rulesForEventIn event r.active

def toDocument (r : Registry) : Document :=
  .dict
    [ ("scopes", .dict (r.scopes.map fun (scope, rules) =>
        (scope, .list (rules.map (·.toDocument))))),
      ("active", .texts r.active) ]

/-! ## Registering -/

/-- Replaces the rules of a scope, which comes up at the end if it is new. -/
def put (r : Registry) (scope : String) (rules : List Rule) : Registry :=
  { r with scopes := Document.putField scope rules r.scopes }

def append (r : Registry) (scope : String) (rules : List Rule) : Registry :=
  r.put scope (r.rulesOf scope ++ rules)

/-- Registers a rule; its name must be new in the scope. -/
def register (r : Registry) (rule : Rule) (scope : String) : Except Fault Registry :=
  if (r.get? rule.id scope).isSome then .error (.duplicateRule rule.id scope)
  else .ok (r.append scope [rule])

def occurrences (batch : List Rule) (id : String) : Nat :=
  batch.countP (·.id = id)

/-- The name of the occurrence with the given number of a repeated name. -/
def suffixed (id : String) (n : Nat) : String := s!"{id}-{n}"

/-- A batch in which the repeated names have been dealt with: refused, or
    numbered from zero. -/
def resolve (policy : DuplicatePolicy) (scope : String) (batch : List Rule) :
    Except Fault (List Rule) :=
  batch.zipIdx.mapM fun (rule, i) =>
    if occurrences batch rule.id ≤ 1 then .ok rule
    else
      match policy with
      | .error => .error (.duplicateRule rule.id scope)
      | .suffix =>
        .ok { rule with id := suffixed rule.id (occurrences (batch.take i) rule.id) }

/-- Registers the rules of a batch in order, all of them or none: their names
    must be new in the scope and in the batch. -/
def registerBatch (r : Registry) (batch : List Rule) (scope : String)
    (policy : DuplicatePolicy) : Except Fault (List Rule × Registry) := do
  let resolved ← resolve policy scope batch
  let stored := (r.rulesOf scope).map (·.id)
  let _ ← resolved.foldlM (fun taken rule =>
    if rule.id ∈ taken then Except.error (Fault.duplicateRule rule.id scope)
    else Except.ok (rule.id :: taken)) stored
  return (resolved, r.append scope resolved)

def unregister (r : Registry) (id scope : String) : Option Rule × Registry :=
  match r.get? id scope with
  | none => (none, r)
  | some rule => (some rule, r.put scope ((r.rulesOf scope).eraseP (·.id = id)))

/-- Enables or disables a rule, by any value that counts as true or false; says
    whether there is one. -/
def setEnabled (r : Registry) (id : String) (enablement : Document) (scope : String) :
    Bool × Registry :=
  match r.get? id scope with
  | none => (false, r)
  | some _ =>
    let change (rule : Rule) := if rule.id = id then { rule with enablement } else rule
    (true, r.put scope ((r.rulesOf scope).map change))

/-! ## Scopes -/

/-- Takes the rules of a scope away; the global scope itself stays. -/
def clearScope (r : Registry) (scope : String) : Registry :=
  if scope = globalScope then r.put scope []
  else { r with scopes := r.scopes.filter (·.1 ≠ scope) }

/-- Makes the rules of a scope match. -/
def activate (r : Registry) (scope : String) : Registry :=
  if scope = globalScope then r
  else
    let r := r.append scope []
    if scope ∈ r.active then r else { r with active := r.active ++ [scope] }

/-- Keeps the rules of a scope from matching. -/
def deactivate (r : Registry) (scope : String) : Registry :=
  { r with active := r.active.erase scope }

end Registry

end Cascade
