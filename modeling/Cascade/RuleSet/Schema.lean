-- SUMMARY: The form of rule set documents: what every field may hold, and the places of everything that does not fit.
import Cascade.RuleSet.Condition
import Cascade.Modification.Basic
import Cascade.Text.Integer

/-! # The form of rule sets

A rule set document is a record of facts and rules. Checking it goes through
the whole document and collects every **place** at which something does not
fit: the name of a field, the number of a rule, a field of a rule, or an
element of a list in a field of a rule. Numbers and truth values may be written
in more than one way. -/

namespace Cascade

namespace RuleSet

/-! ## Checked values -/

/-- A value, if there is one, and the places that do not fit. -/
structure Checked (α : Type) where
  value? : Option α
  places : List String

namespace Checked

variable {α β : Type}

def fits (a : α) : Checked α := ⟨some a, []⟩

def misfit (place : String) : Checked α := ⟨none, [place]⟩

/-- A value that fits if there is one. -/
def ofOption (place : String) : Option α → Checked α
  | some a => fits a
  | none => misfit place

/-- Applies a function that may not fit to a value that may not fit; the
    places of both count. -/
def applied (f : Checked (α → β)) (a : Checked α) : Checked β where
  value? := f.value?.bind fun f => a.value?.map f
  places := f.places ++ a.places

instance : Applicative Checked where
  pure := fits
  seq f a := applied f (a ())

def all (xs : List (Checked α)) : Checked (List α) where
  value? := xs.mapM (·.value?)
  places := xs.flatMap (·.places)

/-- A value together with places that do not fit. -/
def flagging (a : Checked α) (places : List String) : Checked α :=
  if places = [] then a else ⟨none, a.places ++ places⟩

end Checked

/-! ## Simple values -/

def truthWords : List (String × Bool) :=
  [("0", false), ("off", false), ("f", false), ("false", false), ("n", false), ("no", false),
    ("1", true), ("on", true), ("t", true), ("true", true), ("y", true), ("yes", true)]

/-- The truth value that a document writes: a truth value, the numbers zero and
    one, or a word. -/
def truth? : Document → Option Bool
  | .bool b => some b
  | .int n => if n = 0 then some false else if n = 1 then some true else none
  | .float x => if x == 0.0 then some false else if x == 1.0 then some true else none
  | .str s => (truthWords.find? (·.1 = s.toLower)).map (·.2)
  | _ => none

/-- The integer that a document writes: an integer, a truth value, a float
    without fraction inside the range of 64-bit integers, or a text. -/
def integer? : Document → Option Int
  | .int n => some n
  | .bool b => some (if b then 1 else 0)
  | .float x => (Exact.ofFloat x).whole?.filter fun n => n.natAbs < Nat.pow 2 63
  | .str s => Text.plainInteger? s
  | _ => none

/-- What a number or the text of an expression is written as; a truth value is
    the integer zero or one. -/
def amount? : Document → Option Document
  | .int n => some (.int n)
  | .float x => some (.float x)
  | .str s => some (.str s)
  | .bool b => some (.int (if b then 1 else 0))
  | _ => none

def optionalText? : Document → Option (Option String)
  | .null => some none
  | .str s => some (some s)
  | _ => none

def optionalLayer? : Document → Option (Option LayerName)
  | .null => some none
  | .str "local" => some (some .inner)
  | .str "global" => some (some .global)
  | _ => none

def texts? : Document → Option (List String)
  | .list items => Document.texts? items
  | _ => none

/-- The value of a field, or its default; `none` if what is there does not
    fit. -/
def field {α : Type} (fields : List (String × Document)) (name : String) (default : α)
    (read? : Document → Option α) : Option α :=
  match Document.field? fields name with
  | none => some default
  | some d => read? d

/-! ## Modifications -/

/-- Where the value of a setting comes from. -/
inductive Source where
  | value (d : Document)
  | expr (text : String)

inductive EffectSpec where
  | set (source : Source)
  | setIfChanged (source : Source) (outputs : List String)
  | increment (amount : Document)
  | decrement (amount : Document)
  | combine (op : Compound) (operand : Document)
  | remove
  | toggle

structure ModificationSpec where
  key : String
  layer : Option LayerName
  effect : EffectSpec

namespace ModificationSpec

/-- The source of a setting: exactly one of a value and an expression. -/
def source? (fields : List (String × Document)) : Option Source := do
  let expr ← field fields "expr" none optionalText?
  match (Document.field? fields "value").getD .null, expr with
  | .null, some text => some (.expr text)
  | .null, none => none
  | _, some _ => none
  | d, none => some (.value d)

/-- A setting; only one that looks for changes may have outputs. -/
def setting? (fields : List (String × Document)) (onChange : Bool) : Option EffectSpec := do
  let source ← source? fields
  let outputs ← field fields "outputs_on_change" [] texts?
  if onChange then return .setIfChanged source outputs
  else if outputs = [] then return .set source
  else none

/-- The effect that a record writes and the fields that it may have beside the
    operation, the key and the layer. -/
def effect? (fields : List (String × Document)) : Option (EffectSpec × List String) := do
  let settingFields := ["value", "expr", "outputs_on_change"]
  match ← Document.textField? fields "op" with
  | "set" => return (← setting? fields false, settingFields)
  | "set_if_changed" => return (← setting? fields true, settingFields)
  | "increment" => return (.increment (← field fields "amount" (.int 1) amount?), ["amount"])
  | "decrement" => return (.decrement (← field fields "amount" (.int 1) amount?), ["amount"])
  | "remove" => return (.remove, [])
  | "toggle" => return (.toggle, [])
  | name =>
    let op ← Compound.ofName? name
    let operand ← (← Document.field? fields "operand") |> amount?
    return (.combine op operand, ["operand"])

def ofDocument? (d : Document) : Option ModificationSpec := do
  match d with
  | .dict fields =>
    let (effect, names) ← effect? fields
    let key ← Document.textField? fields "key"
    let layer ← field fields "layer" none optionalLayer?
    if Document.hasOnly fields (["op", "key", "layer"] ++ names) then
      return ⟨key, layer, effect⟩
    else none
  | _ => none

end ModificationSpec

/-! ## Rules -/

structure RuleSpec where
  id : Option String
  event : String
  conditions : List String
  condition : Option (List ConditionSpec)
  modifications : List ModificationSpec
  actions : List String
  outputs : List String
  consumes : Bool
  priority : Int
  enabled : Bool

def ruleFields : List String :=
  ["id", "conditions", "condition", "modifications", "actions", "outputs",
    "consume_event", "priority", "enabled"]

/-- The event that stands for what happened to an input action. -/
def actionEvent? (fields : List (String × Document)) : Option String := do
  let action ← Document.textField? fields "action"
  let kind ← Document.textField? fields "kind"
  if kind ∈ ["just_pressed", "pressed", "just_released"]
      && Document.hasOnly fields ["action", "kind"] then
    return s!"action:{action}:{kind}"
  else none

def event? : Document → Option String
  | .str s => some s
  | .dict fields => actionEvent? fields
  | _ => none

/-- The event of a rule, under either of its two names, the first one first.
    The second name is unknown beside the first. -/
def eventField (place : String) (fields : List (String × Document)) : Checked String :=
  match Document.field? fields "event", Document.field? fields "trigger" with
  | some d, trigger =>
    (Checked.ofOption (place ++ ".event") (event? d)).flagging
      (if trigger.isSome then [place ++ ".trigger"] else [])
  | none, some d => Checked.ofOption (place ++ ".trigger") (event? d)
  | none, none => Checked.misfit (place ++ ".event")

/-- The condition of a rule: one, a list of them, or nothing. -/
def conditions? : Document → Option (Option (List ConditionSpec))
  | .null => some none
  | .list items => (ConditionSpec.ofDocuments? items).map some
  | d => (ConditionSpec.ofDocument? d).map fun c => some [c]

/-- A field of a rule that does not fit as a whole. -/
def simpleField {α : Type} (place : String) (fields : List (String × Document))
    (name : String) (default : α) (read? : Document → Option α) : Checked α :=
  Checked.ofOption (place ++ "." ++ name) (field fields name default read?)

/-- A field of a rule that is a list, where each element may not fit. -/
def listField {α : Type} (place : String) (fields : List (String × Document))
    (name : String) (read? : Document → Option α) : Checked (List α) :=
  let place := place ++ "." ++ name
  match Document.field? fields name with
  | none => Checked.fits []
  | some (.list items) =>
    Checked.all (items.zipIdx.map fun (d, j) =>
      Checked.ofOption (place ++ "." ++ toString j) (read? d))
  | some _ => Checked.misfit place

/-- The rule that a record writes at a place. -/
def ruleOf (place : String) (fields : List (String × Document)) : Checked RuleSpec :=
  let unknown := (fields.map (·.1)).filter fun name =>
    name ∉ ruleFields && name ≠ "event" && name ≠ "trigger"
  let checked := RuleSpec.mk
    <$> simpleField place fields "id" none optionalText?
    <*> eventField place fields
    <*> listField place fields "conditions" Document.text?
    <*> simpleField place fields "condition" none conditions?
    <*> listField place fields "modifications" ModificationSpec.ofDocument?
    <*> listField place fields "actions" Document.text?
    <*> listField place fields "outputs" Document.text?
    <*> simpleField place fields "consume_event" false truth?
    <*> simpleField place fields "priority" 0 integer?
    <*> simpleField place fields "enabled" true truth?
  checked.flagging (unknown.map (place ++ "." ++ ·))

/-! ## Documents -/

structure Spec where
  facts : List (String × Document)
  rules : List RuleSpec

def rulesOf : Document → Checked (List RuleSpec)
  | .list items =>
    Checked.all (items.zipIdx.map fun (d, i) =>
      let place := "rules." ++ toString i
      match d with
      | .dict fields => ruleOf place fields
      | _ => Checked.misfit place)
  | _ => Checked.misfit "rules"

def factsOf : Document → Checked (List (String × Document))
  | .dict fields => Checked.fits fields
  | _ => Checked.misfit "facts"

/-- The rule set that the fields of a document write. -/
def specOf (fields : List (String × Document)) : Checked Spec :=
  let unknown := (fields.map (·.1)).filter fun name => name ≠ "facts" && name ≠ "rules"
  let checked := Spec.mk
    <$> factsOf ((Document.field? fields "facts").getD (.dict []))
    <*> rulesOf ((Document.field? fields "rules").getD (.list []))
  checked.flagging unknown

/-- Places in order, each once. -/
def sorted (places : List String) : List String :=
  (places.mergeSort fun a b => a ≤ b).eraseReps

/-- The rule set that a document writes, or the places that do not fit. -/
def Spec.ofDocument (d : Document) : Except Fault Spec :=
  match d with
  | .dict fields =>
    let checked := specOf fields
    match checked.value? with
    | some spec => .ok spec
    | none => .error (.refused (.badPlaces (sorted checked.places)))
  | d => .error (.refused (.notRuleSet d))

end RuleSet

end Cascade
