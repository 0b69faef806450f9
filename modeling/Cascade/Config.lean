-- SUMMARY: Settings of an engine: their defaults, what is allowed, and how they are read from arguments and from named variables.
import Cascade.Registry.Basic
import Cascade.Report.Issue
import Cascade.Store.Writes
import Cascade.Text.Integer

/-! # Settings

Five settings, each with a default. They come as arguments, whose types have
to be right, or as texts from named variables, where blanks around a value and
the case of its letters do not matter and an empty value counts as none. -/

namespace Cascade

/-- What happens to the events that are left over when a cascade gets too
    deep. -/
inductive OverflowPolicy where
  | drop | defer
  deriving DecidableEq, Repr

def OverflowPolicy.name : OverflowPolicy → String
  | drop => "drop"
  | defer => "defer"

def OverflowPolicy.ofName? : String → Option OverflowPolicy
  | "drop" => some drop
  | "defer" => some defer
  | _ => none

structure Config where
  maxDepth : Nat
  overflow : OverflowPolicy
  duplicates : DuplicatePolicy
  layer : LayerName
  logLevel : LogLevel
  deriving DecidableEq, Repr

namespace Config

def default : Config := ⟨16, .drop, .error, .inner, .info⟩

instance : Inhabited Config := ⟨default⟩

/-! ## Arguments -/

def names : List String :=
  ["max_cascade_depth", "overflow_policy", "duplicate_id_policy", "default_write_layer",
    "log_level"]

/-- The setting that an argument gives, its default without one. -/
def setting {α : Type} (fields : List (String × Document)) (name : String) (default : α)
    (read? : Document → Option α) (cause : BadSetting) : Except Fault α :=
  match Document.field? fields name with
  | none => .ok default
  | some d =>
    match read? d with
    | some a => .ok a
    | none => .error (.badSetting cause)

/-- The depth that a document gives. -/
def depth? : Document → Option Nat
  | .int n => if 0 ≤ n then some n.toNat else none
  | _ => none

def layer? (d : Document) : Option LayerName :=
  match LayerRef.ofDatum (.document d) with
  | .named name => some name
  | .other _ => none

def ofArguments (fields : List (String × Document)) : Except Fault Config := do
  if fields.any fun (name, _) => name ∉ names then throw .wrongType
  let depth ← setting fields "max_cascade_depth" default.maxDepth depth? .depth
  let overflow ← setting fields "overflow_policy" default.overflow
    (fun d => d.text?.bind OverflowPolicy.ofName?) .overflowPolicy
  let duplicates ← setting fields "duplicate_id_policy" default.duplicates
    (fun d => d.text?.bind DuplicatePolicy.ofName?) .duplicatePolicy
  let layer ← setting fields "default_write_layer" default.layer layer? .layer
  let level ← setting fields "log_level" default.logLevel
    (fun d => d.text?.bind fun s => LogLevel.ofName? s.toLower) .logLevel
  return ⟨depth, overflow, duplicates, layer, level⟩

/-! ## Variables -/

/-- What the names of the variables start with. -/
def variableMark : String := "FACTRULE_"

/-- The name of the variable of a setting. -/
def variableOf (name : String) : String := variableMark ++ name.toUpper

/-- The argument that the text of a variable gives, if it gives one. -/
def argument? (name raw : String) : Except Fault (Option (String × Document)) :=
  let text := String.ofList (Text.trim Text.isBlank raw.toList)
  if text = "" then .ok none
  else if name = "max_cascade_depth" then
    match Text.groupedInteger? text with
    | some n => .ok (some (name, .int n))
    | none => .error (.badSetting (.depthText text))
  else .ok (some (name, .str text.toLower))

/-- The settings that variables give, each of which is a text or nothing. -/
def ofVariables (values : List (String × Document)) : Except Fault Config := do
  let found ← names.mapM fun name =>
    match Document.field? values (variableOf name) with
    | some (.str raw) => argument? name raw
    | none | some .null => .ok none
    | some _ => .error .noSuchMethod
  ofArguments (found.filterMap id)

def toDocument (c : Config) : Document :=
  .dict
    [ ("max_cascade_depth", .int c.maxDepth), ("overflow_policy", .str c.overflow.name),
      ("duplicate_id_policy", .str c.duplicates.name),
      ("default_write_layer", .str c.layer.text), ("log_level", .str c.logLevel.name) ]

end Config

/-! ## Log levels by name -/

/-- A letter in upper case, where that is a letter of the English alphabet. -/
def Text.upperLetter (c : Char) : Char :=
  if c = 'ı' then 'I' else if c = 'ſ' then 'S' else c.toUpper

/-- The numbers of the log levels by their names in upper case. -/
def levelNumbers : List (String × Nat) :=
  [("CRITICAL", 50), ("FATAL", 50), ("ERROR", 40), ("WARNING", 30), ("WARN", 30),
    ("INFO", 20), ("DEBUG", 10), ("NOTSET", 0)]

/-- The number of the log level that a text names, whatever the case of its
    letters. -/
def levelNumber (text : String) : Except Fault Nat :=
  match levelNumbers.find? (·.1 = text.map Text.upperLetter) with
  | some (_, n) => .ok n
  | none => .error (.badArgument (.level text))

end Cascade
