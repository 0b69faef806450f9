-- SUMMARY: Faults: every cause by which reading, evaluating, storing, registering or running can fail, and the wording of each.
import Cascade.Datum

/-! # Faults

A fault is a cause with the values it is about; `Fault.message` words it. The
faults that evaluating a condition or applying a modification may raise as a
matter of course form a class of their own, `Fault.isEvaluation`: an engine
recovers from those and from no others. -/

namespace Cascade

/-! ## Facts that do not fit -/

/-- Why a value does not fit where it is used. -/
inductive Mismatch where
  | notOfKind (kind : Kind) (value : Datum)
  | notSequenceOf (kind : Kind) (items : List Document)
  | unknownKind (kind : Document)
  | noKind
  | mixedList (value : Document)
  | unsupported (value : Document)
  | notNumeric (kind : Kind)
  | notBool (context : String) (kind : Kind)
  | cannotNegate (kind : Kind)
  | undefinedFor (op : String) (left right : Kind)
  | remainderOfInts
  | unknownArithmetic (op : String)
  | unordered (op : String) (kind : Kind)
  | incomparable (left right : Kind)
  | unknownComparison (op : String)
  | factNotBool (key : Key) (kind : Kind)
  | changesKind (key : Key) (stored new : Kind)
  | cannotToggle (key : Key) (kind : Kind)
  | cannotIncrement (key : Key) (kind : Kind)
  | cannotWrap (key : Key) (kind : Kind)
  | badKey

namespace Mismatch

/-- What a value of a kind has to be. -/
def requirement : Kind → String
  | .int => "Int value must be an int"
  | .float => "Float value must be a number"
  | .bool => "Bool value must be a bool"
  | .string => "String value must be a str"
  | .intList => "IntList value must be a sequence of ints"
  | .stringList => "StringList value must be a sequence of strings"

/-- The wording of a mismatch. -/
def message : Mismatch → String
  | notOfKind k v => s!"{requirement k}: {v.literal}"
  | notSequenceOf k items => s!"{requirement k}: {Fact.tupleLiteral items}"
  | unknownKind k => s!"Unknown FactValue kind: {k.literal}"
  | noKind => "FactValue payload must be a dict with 'kind'."
  | mixedList v => s!"Lists must hold only ints or only strings: {v.literal}"
  | unsupported v => s!"Unsupported fact value type: {v.typeName}"
  | notNumeric k => s!"Expected a number, got {k.name}."
  | notBool context k => s!"'{context}' requires bool operands, got {k.name}."
  | cannotNegate k => s!"Cannot negate {k.name}."
  | undefinedFor op l r => s!"Operator '{op}' not defined for {l.name} and {r.name}."
  | remainderOfInts => "Operator 'mod' requires int operands."
  | unknownArithmetic op => s!"Unknown arithmetic operator: {op}"
  | unordered op k => s!"Operator '{op}' not defined for {k.name}."
  | incomparable l r => s!"Cannot compare {l.name} with {r.name}."
  | unknownComparison op => s!"Unknown comparison operator: {op}"
  | factNotBool key k => s!"Fact {key.literal} is {k.name}, expected bool."
  | changesKind key stored new =>
    s!"Cannot write {new.name} into {stored.name} fact {key.literal}."
  | cannotToggle key k => s!"Cannot toggle {k.name} fact {key.literal}."
  | cannotIncrement key k => s!"Cannot increment {k.name} fact {key.literal}."
  | cannotWrap key k => s!"Cannot wrap {k.name} fact {key.literal}."
  | badKey => "Fact key must be a non-empty string."

end Mismatch

/-! ## Malformed expressions -/

/-- What was looked for where something else was found. -/
inductive Expectation where
  | anything
  | nothingMore
  | oneComparison
  | value
  | listItem
  | token (text : String)
  deriving DecidableEq, Repr

def Expectation.message : Expectation → String
  | anything => "Empty expression"
  | nothingMore => "Unexpected token"
  | oneComparison => "Comparisons cannot be chained"
  | value => "Expected a value"
  | listItem => "List items must be int or string literals"
  | token text => "Expected " ++ Text.quoted text

/-- Why a text or a document is no expression or condition. -/
inductive Malformation where
  | unexpectedCharacter (c : Char)
  | unknownEscape (c : Char)
  | unexpected (wanted : Expectation) (found : Option String)
  | mixedItems
  | notText
  | emptyKey
  | unknownUnary (op : Document)
  | unknownBinary (op : Document)
  | notRecord
  | unknownExpression (kind : Document)
  | unknownCondition (kind : Document)
  | unsupportedCondition

def Malformation.message : Malformation → String
  | unexpectedCharacter c => s!"Unexpected character {Text.quoted c.toString}"
  | unknownEscape c => s!"Unknown escape \\{c}"
  | unexpected wanted found =>
    let what := (found.map Text.quoted).getD "end of expression"
    s!"{wanted.message}, found {what}"
  | mixedItems => "List literals must hold only ints or only strings"
  | notText => "Expression source must be a string"
  | emptyKey => "FactRef key must be non-empty"
  | unknownUnary op => s!"Unknown unary operator {op.literal}"
  | unknownBinary op => s!"Unknown binary operator {op.literal}"
  | notRecord => "Expression payload must be a dict"
  | unknownExpression kind => s!"Unknown expression kind {kind.literal}"
  | unknownCondition kind => s!"Unknown condition kind {kind.literal}"
  | unsupportedCondition => "Unsupported condition spec"

/-! ## Rules that cannot be loaded -/

/-- Why a rule, or a whole rule set, is refused. -/
inductive Refusal where
  | notJson
  | notRuleSet (value : Document)
  | badPlaces (places : List String)
  | noFile (path : String)
  | emptyId
  | emptyEvent (id : String)
  | notModification (id : String) (value : Document)
  | unknownLayer (id : String) (layer : Datum)
  | emptyName (id list : String)
  | unknownModification (op : Document)

def Refusal.message : Refusal → String
  | notJson => "Rule set is not valid JSON"
  | notRuleSet _ => "Invalid rule set document"
  | badPlaces places => "Invalid rule set document: " ++ ", ".intercalate places
  | noFile path => s!"Rule set file not found: {path}"
  | emptyId => "Rule id must be a non-empty string."
  | emptyEvent id => s!"Rule {Text.quoted id}: event must be a non-empty string."
  | notModification id v => s!"Rule {Text.quoted id}: invalid modification {v.literal}."
  | unknownLayer id layer => s!"Rule {Text.quoted id}: unknown layer {layer.literal}."
  | emptyName id list => s!"Rule {Text.quoted id}: {list} must be non-empty strings."
  | unknownModification op => s!"Unknown modification op: {op.literal}"

/-! ## Scopes, settings and arguments -/

/-- Why a scope or a context cannot be left. -/
inductive BadPop where
  | nothingPushed
  | otherScope (asked : Datum) (innermost : String)
  | noContext (asked : String)
  | otherContext (asked current : String)

def BadPop.message : BadPop → String
  | nothingPushed => "pop_scope called with no pushed scope."
  | otherScope asked top =>
    s!"Cannot pop scope {asked.literal}: innermost scope is {Text.quoted top}."
  | noContext asked => s!"exit_context({Text.quoted asked}) with no context entered."
  | otherContext asked current =>
    s!"exit_context({Text.quoted asked}) does not match current context {Text.quoted current}."

/-- Which setting is wrong. -/
inductive BadSetting where
  | depth
  | depthText (raw : String)
  | overflowPolicy
  | duplicatePolicy
  | layer
  | logLevel
  deriving DecidableEq, Repr

def BadSetting.message : BadSetting → String
  | depth => "max_cascade_depth must be a non-negative int"
  | depthText raw => s!"FACTRULE_MAX_CASCADE_DEPTH must be an int: {Text.quoted raw}"
  | overflowPolicy => "overflow_policy must be 'drop' or 'defer'"
  | duplicatePolicy => "duplicate_id_policy must be 'error' or 'suffix'"
  | layer => "default_write_layer must be 'local' or 'global'"
  | logLevel => "log_level must be one of debug, info, warning, error, critical"

/-- Which argument has a value that is not allowed. -/
inductive BadArgument where
  | layer (given : Datum)
  | clampBounds
  | wrapBounds
  | scope
  | event
  | issueKind (given : Document)
  | policy (given : Document)
  | integerText (given : String)
  | integerOfNaN
  | level (given : String)

def beginning (count : Nat) (s : String) : String := String.ofList (s.toList.take count)

/-- The wording of a wrong argument. A text that is no integer is quoted up to
    its two hundredth character. -/
def BadArgument.message : BadArgument → String
  | layer given => s!"layer must be 'local' or 'global', got {given.literal}"
  | clampBounds => "clamp requires low <= high"
  | wrapBounds => "wrap requires low < high"
  | scope => "scope_id must be a non-empty string"
  | event => "Event id must be a non-empty string"
  | issueKind given => s!"Unknown issue kind: {given.literal}"
  | policy given => s!"Unknown duplicate id policy: {given.literal}"
  | integerText given => s!"invalid literal for int() with base 10: {beginning 200 (Text.quoted given)}"
  | integerOfNaN => "cannot convert float NaN to integer"
  | level given => s!"Unknown log level: {Text.quoted given}"

/-! ## All faults -/

/-- Why an operation failed. -/
inductive Fault where
  | unknownFact (key : Key)
  | mismatch (cause : Mismatch)
  | divisionByZero
  | moduloByZero
  | malformed (cause : Malformation) (source : Document) (position : Nat)
  | refused (cause : Refusal)
  | badFact (key : String) (cause : Fault)
  | badRule (label : String) (cause : Fault)
  | duplicateRule (id scope : String)
  | badPop (cause : BadPop)
  | checkpointOpen
  | alreadyDraining
  | badSetting (cause : BadSetting)
  | emptyAction
  | duplicateAction (id : String)
  | badArgument (cause : BadArgument)
  | missingField (name : String)
  | hostRaised (message : String)
  | hostUnworded (cause : Fault)
  | wrongType
  | noSuchMethod
  | tooLarge
  | zeroModulus

namespace Fault

/-- Whether a fault belongs to the evaluation of a condition or a value, from
    which an engine recovers. -/
def isEvaluation : Fault → Bool
  | unknownFact _ | mismatch _ | divisionByZero | moduloByZero => true
  | _ => false

/-- Whether a fault is one of the library's own, as against a misuse by its
    caller: documents that raise one are refused by name. -/
def isOwn : Fault → Bool
  | unknownFact _ | mismatch _ | divisionByZero | moduloByZero | malformed ..
  | refused _ | badFact .. | badRule .. | duplicateRule .. | badPop _
  | checkpointOpen | alreadyDraining | badSetting _ | emptyAction
  | duplicateAction _ => true
  | _ => false

/-- The wording of a fault. -/
def message : Fault → String
  | unknownFact key => s!"Unknown fact: {key.plain}"
  | mismatch cause => cause.message
  | divisionByZero => "Division by zero."
  | moduloByZero => "Modulo by zero."
  | malformed cause source position =>
    s!"{cause.message} at position {position} in {source.literal}"
  | refused cause => cause.message
  | badFact key cause => s!"Invalid value for fact {Text.quoted key}: {cause.message}"
  | badRule label cause => s!"Rule {label}: {cause.message}"
  | duplicateRule id scope =>
    s!"Rule id {Text.quoted id} already registered in scope {Text.quoted scope}."
  | badPop cause => cause.message
  | checkpointOpen => "A checkpoint is already open."
  | alreadyDraining => "tick() called while the engine is already draining."
  | badSetting cause => cause.message
  | emptyAction => "Action id must be a non-empty string."
  | duplicateAction id => s!"Action handler already registered: {id}"
  | badArgument cause => cause.message
  | missingField name => Text.quoted name
  | hostRaised message => message
  | hostUnworded cause => cause.message
  | wrongType => "a value has the wrong type"
  | noSuchMethod => "a value lacks the operation asked of it"
  | tooLarge => "int too large to convert to float"
  | zeroModulus => "float modulo"

/-- The text of a fault. A host may raise a fault of which it has no text: to
    word it fails in its turn. -/
def wording : Fault → Except Fault String
  | hostUnworded cause => .error cause
  | f => .ok f.message

end Fault

end Cascade
