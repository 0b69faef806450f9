-- SUMMARY: The engine: store, rules, handlers and pending events together, with loading, contexts and the intake of events.
import Cascade.Config
import Cascade.Dispatcher
import Cascade.Event.Queue
import Cascade.RuleSet.Basic
import Cascade.Store.Scopes

/-! # The engine

An engine owns a layered store, a registry of rules and a queue of events. A
**context** is a scope that has been entered: its rules match, and a layer of
the store belongs to it, which is seeded with the facts that were loaded for
the scope and is dropped when the context is left. What handlers are, and what
state the host keeps for them, is open. -/

namespace Cascade

/-- An engine with handlers of type `η` and a host state of type `ω`. -/
structure Engine (η ω : Type) where
  config : Config
  store : Layered
  registry : Registry
  dispatcher : Dispatcher η
  sink : Sink
  queue : Queue
  entered : List String
  seeds : List (String × List (String × Fact))
  draining : Bool
  log : List LogEntry
  host : ω

namespace Engine

variable {η ω : Type}

def ofConfig (config : Config) (sink : Sink) (host : ω) : Engine η ω where
  config := config
  store := .ofFacts ∅
  registry := .empty
  dispatcher := .empty
  sink := sink
  queue := .empty
  entered := []
  seeds := []
  draining := false
  log := []
  host := host

def contexts (e : Engine η ω) : List String := e.entered.reverse

def current? (e : Engine η ω) : Option String := e.entered.head?

/-- The facts that were loaded for a scope. -/
def seedsOf (e : Engine η ω) (scope : String) : List (String × Fact) :=
  ((e.seeds.find? (·.1 = scope)).map (·.2)).getD []

/-! ## Parts -/

def onStore {α : Type} (a : Attempt Layered α) : Attempt (Engine η ω) α :=
  a.zoom Engine.store fun store e => { e with store }

/-- Changes the registry of an engine. -/
def onRegistry (f : Registry → Registry) : Attempt (Engine η ω) Unit :=
  modify fun e => { e with registry := f e.registry }

def note (level : LogLevel) (message : String) (fields : List (String × Document)) :
    Attempt (Engine η ω) Unit :=
  modify fun e => { e with log := e.log ++ [⟨level, .str message, fields⟩] }

/-- Sends an issue to the sink. -/
def send (i : Issue) : Attempt (Engine η ω) Unit :=
  modify fun e =>
    let (sink, entries) := e.sink.report i
    { e with sink, log := e.log ++ entries }

def storeAll (facts : List (String × Fact)) (layer : LayerName) :
    Attempt (Engine η ω) Unit :=
  onStore (facts.forM fun (name, f) => Layered.store (.name name) (.fact f) (.named layer))

/-! ## Loading -/

/-- Keeps facts for the activations of a scope; later ones win. -/
def seed (scope : String) (facts : List (String × Fact)) : Attempt (Engine η ω) Unit :=
  modify fun e =>
    let merged := facts.foldl (fun kept (name, f) => Document.putField name f kept)
      (e.seedsOf scope)
    { e with seeds := Document.putField scope merged e.seeds }

/-- Registers the rules of a rule set in a scope and stores its facts: those of
    the global scope at once, those of another scope whenever it is entered and
    also now if it is the innermost context. Gives the names of the rules. -/
def load (rs : RuleSet) (scope : String) : Attempt (Engine η ω) (List String) := do
  let e ← get
  let (rules, registry) ← Attempt.ofExcept
    (e.registry.registerBatch rs.rules scope e.config.duplicates)
  set { e with registry }
  if scope = Registry.globalScope then storeAll rs.facts .global
  else
    seed scope rs.facts
    if e.current? = some scope then storeAll rs.facts .inner
  note .debug "rule set loaded"
    [("scope", .str scope), ("rules", .int rules.length), ("facts", .int rs.facts.length)]
  return rules.map (·.id)

/-- Registers a rule in a scope and gives its name. -/
def registerRule (rule : Rule) (scope : String) : Attempt (Engine η ω) String := do
  let e ← get
  let registry ← Attempt.ofExcept (e.registry.register rule scope)
  set { e with registry }
  return rule.id

def registerAction (action : Document) (handler : η) : Attempt (Engine η ω) Unit := do
  let e ← get
  let dispatcher ← Attempt.ofExcept (e.dispatcher.register action handler)
  set { e with dispatcher }

/-! ## Contexts -/

/-- The values that a log entry on a context carries. -/
def contextFields (e : Engine η ω) (scope : String) : List (String × Document) :=
  [("scope", .str scope), ("depth", .int e.entered.length)]

def enterContext (scope : String) : Attempt (Engine η ω) Unit := do
  onStore (Layered.pushScope (.text scope))
  modify fun e => { e with entered := scope :: e.entered }
  onRegistry (·.activate scope)
  storeAll ((← get).seedsOf scope) .inner
  note .info "context entered" ((← get).contextFields scope)

/-- Leaves the innermost context, which has to be the given one, and drops its
    facts. Its rules stop matching unless the context is entered once more. -/
def exitContext (scope : String) : Attempt (Engine η ω) Unit := do
  match (← get).entered with
  | [] => throw (.badPop (.noContext scope))
  | top :: rest => do
    if top ≠ scope then throw (.badPop (.otherContext scope top))
    let _ ← onStore (Layered.popScope (.text scope))
    modify fun e => { e with entered := rest }
    if scope ∉ rest then onRegistry (·.deactivate scope)
    note .info "context exited" ((← get).contextFields scope)

/-! ## Events -/

def emit (id : Document) (payload : List (String × Datum)) :
    Attempt (Engine η ω) Event := do
  let event ← Attempt.ofExcept (Event.make id payload "" none)
  modify fun e => { e with queue := e.queue.push event }
  return event

end Engine

end Cascade
