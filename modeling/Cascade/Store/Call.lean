-- SUMMARY: Operations called by name: arguments by position and by keyword, parameters with defaults, and tables of operations.
import Cascade.Fact.Reading

/-! # Calls

A call names an operation and gives it arguments by position, by keyword or
both. The table of a store says which parameters an operation has. Arguments
that do not fit them are a fault of the caller, and so is a name that the
table does not have. -/

namespace Cascade

/-- An operation called by name, with its arguments as they are written. -/
structure Call where
  name : String
  positional : List Document
  keyword : List (String × Document)

/-- The arguments of a call: those given by position and those by keyword. -/
structure Arguments where
  positional : List Datum
  keyword : List (String × Datum)

/-- The arguments that a call writes; records with a kind are facts. -/
def Call.arguments (c : Call) : Except Fault Arguments := do
  let positional ← c.positional.mapM Datum.ofDocument
  let keyword ← c.keyword.mapM fun (name, d) => do return (name, ← Datum.ofDocument d)
  return ⟨positional, keyword⟩

/-- A parameter of an operation and the value it has when no argument is
    given. -/
structure Parameter where
  name : String
  default? : Option Datum

namespace Parameter

/-- A parameter that has to be given. -/
def needed (name : String) : Parameter := ⟨name, none⟩

/-- A parameter with a default. -/
def optional (name : String) (value : Datum) : Parameter := ⟨name, some value⟩

/-- The arguments of the parameters left after those given by position. -/
def fill (keyword : List (String × Datum)) (p : Parameter) : Option Datum :=
  ((keyword.find? (·.1 = p.name)).map (·.2)).or p.default?

/-- One argument for each parameter. -/
def bind? (ps : List Parameter) (args : Arguments) : Option (List Datum) :=
  let rest := ps.drop args.positional.length
  let known := args.keyword.all fun (k, _) => rest.any (·.name = k)
  if args.positional.length ≤ ps.length && known then
    (rest.mapM (fill args.keyword)).map (args.positional ++ ·)
  else none

end Parameter

/-- An operation of a table: its name, its parameters and the command that it
    makes of its arguments. -/
structure Operation (α : Type) where
  name : String
  parameters : List Parameter
  build : List Datum → Option α

namespace Operation

variable {α : Type}

def plain (name : String) (command : α) : Operation α :=
  ⟨name, [], fun
    | [] => some command
    | _ => none⟩

def unary (name : String) (p : Parameter) (f : Datum → α) : Operation α :=
  ⟨name, [p], fun
    | [a] => some (f a)
    | _ => none⟩

def binary (name : String) (p q : Parameter) (f : Datum → Datum → α) : Operation α :=
  ⟨name, [p, q], fun
    | [a, b] => some (f a b)
    | _ => none⟩

def ternary (name : String) (p q r : Parameter) (f : Datum → Datum → Datum → α) :
    Operation α :=
  ⟨name, [p, q, r], fun
    | [a, b, c] => some (f a b c)
    | _ => none⟩

def quaternary (name : String) (p q r s : Parameter)
    (f : Datum → Datum → Datum → Datum → α) : Operation α :=
  ⟨name, [p, q, r, s], fun
    | [a, b, c, d] => some (f a b c d)
    | _ => none⟩

/-- The command that a call makes. -/
def resolve (table : List (Operation α)) (c : Call) : Except Fault α := do
  let args ← c.arguments
  match table.find? (·.name = c.name) with
  | none => throw .noSuchMethod
  | some op =>
    match (Parameter.bind? op.parameters args).bind op.build with
    | some command => return command
    | none => throw .wrongType

end Operation

end Cascade
