-- SUMMARY: The commands that a store takes by name, and what each answers.
import Cascade.Store.Call
import Cascade.Store.Flat
import Cascade.Store.Scopes

/-! # Commands

Every operation of a store that a host can call, as data. An answer is a
document: a fact, a number, a truth value, a map of facts, or nothing. -/

namespace Cascade

/-- A fact, or nothing, as a document. -/
def Fact.toDocument? : Option Fact → Document
  | some f => f.toDocument
  | none => .null

/-- The value of a fact of the given kind, or nothing. -/
def Fact.payloadOf? (k : Kind) (f? : Option Fact) : Document :=
  (f?.map (·.payload? k)).getD .null

/-- The integer of a fact that is one, or the value given instead. -/
def Fact.intOr (f? : Option Fact) (instead : Datum) : Document :=
  match f? with
  | some (.int n) => .int n
  | _ => instead.toDocument

def Parameter.key : Parameter := .needed "key"

def Parameter.value : Parameter := .needed "value"

def Parameter.layer : Parameter := .optional "layer" (.text "local")

def Parameter.amount : Parameter := .optional "amount" (.document (.int 1))

/-- The operations that read a fact of one kind. -/
def Operation.typedReads {α : Type} (f : Kind → Key → α) : List (Operation α) :=
  Kind.all.map fun k => .unary ("get_" ++ k.name) .key fun a => f k (.ofDatum a)

/-! ## The flat store -/

inductive Flat.Command where
  | read (key : Key)
  | holds (key : Key)
  | readAs (kind : Kind) (key : Key)
  | readInt (key : Key) (instead : Datum)
  | set (key : Key) (value : Datum)
  | setIfChanged (key : Key) (value : Datum)
  | increment (key : Key) (amount : Datum)
  | remove (key : Key)
  | clear

namespace Flat.Command

def table : List (Operation Flat.Command) :=
  Operation.typedReads readAs ++
  [ .unary "get" .key fun k => read (.ofDatum k),
    .unary "contains" .key fun k => holds (.ofDatum k),
    .binary "get_int_or" .key (.needed "default") fun k d => readInt (.ofDatum k) d,
    .binary "set" .key .value fun k v => set (.ofDatum k) v,
    .binary "set_if_changed" .key .value fun k v => setIfChanged (.ofDatum k) v,
    .binary "increment" .key .amount fun k a => increment (.ofDatum k) a,
    .unary "remove" .key fun k => remove (.ofDatum k),
    .plain "clear" clear ]

def run : Flat.Command → Attempt Flat Document
  | read k => do return Fact.toDocument? (← Attempt.reading (Flat.place.get k))
  | holds k => do return .bool (← Attempt.reading (Flat.place.contains k))
  | readAs kind k => do
    return Fact.payloadOf? kind (← Attempt.reading (Flat.place.get k))
  | readInt k d => do return Fact.intOr (← Attempt.reading (Flat.place.get k)) d
  | set k v => do
    Flat.place.set k v
    return .null
  | setIfChanged k v => do return .bool (← Flat.place.setIfChanged k v)
  | increment k a => do
    Flat.increment k a
    return .null
  | remove k => do return Fact.toDocument? (← Flat.place.remove k)
  | clear => do
    Flat.place.clear
    return .null

end Flat.Command

/-! ## The layered store -/

inductive Layered.Command where
  | read (key : Key)
  | holds (key : Key)
  | holdsIn (layer : LayerRef) (key : Key)
  | readAs (kind : Kind) (key : Key)
  | readInt (key : Key) (instead : Datum)
  | store (key : Key) (value : Datum) (layer : LayerRef)
  | setIfChanged (key : Key) (value : Datum) (layer : LayerRef)
  | increment (key : Key) (amount : Datum) (layer : LayerRef)
  | add (key : Key) (amount : Datum) (layer : LayerRef)
  | sub (key : Key) (amount : Datum) (layer : LayerRef)
  | combine (op : Arithmetic) (key : Key) (value : Datum) (layer : LayerRef)
  | clamp (key : Key) (low high : Datum) (layer : LayerRef)
  | wrap (key : Key) (low high : Datum) (layer : LayerRef)
  | remove (key : Key) (layer : LayerRef)
  | promote (key : Key)
  | copy (key : Key)
  | demote (key : Key)
  | pushScope (scope : Datum)
  | popScope (scope : Datum)
  | clearInner
  | clearGlobal
  | clearAll
  | snapshot
  | view (layer : LayerRef)
  | count (layer : LayerRef)
  | isEmpty

namespace Layered.Command

/-- A command on a key, a value and a layer, as an operation. -/
def keyed (name : String) (p : Parameter)
    (f : Key → Datum → LayerRef → Layered.Command) : Operation Layered.Command :=
  .ternary name .key p .layer fun k v l => f (.ofDatum k) v (.ofDatum l)

/-- A command on a key, two bounds and a layer, as an operation. -/
def bounded (name : String) (f : Key → Datum → Datum → LayerRef → Layered.Command) :
    Operation Layered.Command :=
  .quaternary name .key (.needed "low") (.needed "high") .layer fun k low high l =>
    f (.ofDatum k) low high (.ofDatum l)

def onKey (name : String) (f : Key → Layered.Command) : Operation Layered.Command :=
  .unary name .key fun k => f (.ofDatum k)

def onValue (name : String) (f : Key → Datum → Layered.Command) :
    Operation Layered.Command :=
  .binary name .key .value fun k v => f (.ofDatum k) v

def reads : List (Operation Layered.Command) :=
  Operation.typedReads readAs ++
  [ onKey "get" read,
    onKey "contains" holds,
    onKey "contains_local" (holdsIn (.named .inner)),
    onKey "contains_global" (holdsIn (.named .global)),
    .binary "get_int_or" .key (.needed "default") fun k d => readInt (.ofDatum k) d,
    .plain "snapshot" snapshot,
    .plain "local_view" (view (.named .inner)),
    .plain "global_view" (view (.named .global)),
    .plain "local_len" (count (.named .inner)),
    .plain "global_len" (count (.named .global)),
    .plain "is_empty" isEmpty ]

def writes : List (Operation Layered.Command) :=
  [ onValue "set" fun k v => store k v (.named .inner),
    onValue "set_local" fun k v => store k v (.named .inner),
    onValue "set_global" fun k v => store k v (.named .global),
    keyed "write" .value store,
    keyed "set_if_changed" .value setIfChanged,
    onValue "set_global_if_changed" fun k v => setIfChanged k v (.named .global),
    keyed "increment" .amount increment,
    .binary "increment_global" .key .amount fun k a => increment (.ofDatum k) a (.named .global),
    keyed "add" (.needed "amount") add,
    keyed "sub" (.needed "amount") sub,
    keyed "mul" (.needed "factor") (combine .mul),
    keyed "div" (.needed "divisor") (combine .div),
    keyed "modulo" (.needed "divisor") (combine .mod),
    bounded "clamp" clamp,
    bounded "wrap" wrap ]

/-- The commands that remove and move facts, and those on scopes. -/
def moves : List (Operation Layered.Command) :=
  [ onKey "remove" fun k => remove k (.named .inner),
    onKey "remove_global" fun k => remove k (.named .global),
    onKey "promote_to_global" promote,
    onKey "copy_to_global" copy,
    onKey "demote_to_local" demote,
    .unary "push_scope" (.needed "scope_id") pushScope,
    .unary "pop_scope" (.optional "scope_id" .null) popScope,
    .plain "clear_local" clearInner,
    .plain "clear_global" clearGlobal,
    .plain "clear_all" clearAll ]

def table : List (Operation Layered.Command) := reads ++ writes ++ moves

/-- An attempt that answers nothing. -/
def silently (a : Attempt Layered Unit) : Attempt Layered Document := do
  a
  return .null

/-- The facts of a layer that exists. -/
def factsOf (layer : LayerRef) : Attempt Layered Facts :=
  Attempt.reading fun db => db.factsAt <$> layer.slot db

def run : Layered.Command → Attempt Layered Document
  | read k => do return Fact.toDocument? (← Attempt.reading (·.read k))
  | holds k => do return .bool (← Attempt.reading (·.read k)).isSome
  | holdsIn l k => do return .bool (← Attempt.reading ((← Layered.target l).contains k))
  | readAs kind k => do return Fact.payloadOf? kind (← Attempt.reading (·.read k))
  | readInt k d => do return Fact.intOr (← Attempt.reading (·.read k)) d
  | store k v l => silently (Layered.store k v l)
  | setIfChanged k v l => do return .bool (← Layered.setIfChanged k v l)
  | increment k a l => silently (Layered.increment k a l)
  | add k a l => silently (Layered.add k a l)
  | sub k a l => silently (Layered.sub k a l)
  | combine op k v l => silently (Layered.combine op k v l)
  | clamp k low high l => silently (Layered.clamp k low high l)
  | wrap k low high l => silently (Layered.wrap k low high l)
  | remove k l => do return Fact.toDocument? (← Layered.remove k l)
  | promote k => do return .bool (← Layered.promote k)
  | copy k => do return .bool (← Layered.copy k)
  | demote k => do return .bool (← Layered.demote k)
  | pushScope s => silently (Layered.pushScope s)
  | popScope s => do return (← Layered.popScope s).toDocument
  | clearInner => silently Layered.clearInner
  | clearGlobal => silently Layered.clearGlobal
  | clearAll => silently Layered.clearAll
  | snapshot => do return (← get).snapshot.toDocument
  | view l => do return (← factsOf l).toDocument
  | count l => do return .int (← factsOf l).size
  | isEmpty => do return .bool (← get).isEmpty

end Layered.Command

end Cascade
