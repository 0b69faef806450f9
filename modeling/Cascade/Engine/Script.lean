-- SUMMARY: Scripts: engine steps as data, handlers that are scripts themselves, and what a step did.
import Cascade.Engine.Tick
import Cascade.Store.Session

/-! # Scripts

A script drives an engine step by step. Its handlers are lists of steps, run in
the middle of a tick; the engine is draining then, so a tick among them is
refused. A step of a handler either lets its fault escape into the engine or
keeps its outcome with the record of the call. -/

namespace Cascade

/-- What a script does with an engine. -/
inductive Step where
  | load (text scope : String)
  | registerRule (rule : Document) (scope : String)
  | emit (event : Document) (payload : List (String × Document))
  | tick
  | enterContext (scope : String)
  | exitContext (scope : String)
  | setEnabled (id : String) (enablement : Document) (scope : String)
  | unregister (id scope : String)
  | clearScope (scope : String)
  | checkpoint (name : String)
  | restore (name : String)
  | commit (name : String)
  | registerAction (action : Document) (handler : List (Bool × Step))
  | setFallback (handler : Option (List (Bool × Step)))
  | unregisterAction (action : String)
  | raise (message : String)
  | call (c : Call)
  deriving Inhabited

namespace Step

/-- A handler: steps, each with whether its outcome is kept. -/
abbrev Handler := List (Bool × Step)

/-- What was noted of a call of a handler: the call, and the outcomes kept. -/
structure CallRecord where
  call : ActionCall
  kept : List (Except Fault Document)

/-- What the host of a script keeps: its calls, the latest first, the logs that
    it has named, and how its schema library words that a document is no record. -/
structure HostState where
  calls : List CallRecord
  logs : Named Nat
  schemaReport : Document → String

/-- An engine that a script drives. -/
abbrev Scripted := Engine Handler HostState

def logOf (name : String) : Attempt Scripted Nat :=
  Attempt.reading (·.host.logs.get name)

/-- An attempt without a result to show. -/
def silently (a : Attempt Scripted Unit) : Attempt Scripted Document := do
  a
  return .null

/-- Carries a step out, given what a tick does. -/
def runWith (tick : Attempt Scripted Report) : Step → Attempt Scripted Document
  | load text scope => do
    let rs ← Attempt.ofExcept (RuleSet.ofText text)
    return .texts (← Engine.load rs scope)
  | registerRule rule scope => do
    let rule ← Attempt.ofExcept (Rule.ofDocument rule)
    return .str (← Engine.registerRule rule scope)
  | emit event payload => do
    let payload ← Attempt.ofExcept (Facts.dataOf payload)
    return (← Engine.emit event payload).toDocument
  | .tick => do return (← tick).toDocument
  | enterContext scope => silently (Engine.enterContext scope)
  | exitContext scope => silently (Engine.exitContext scope)
  | setEnabled id enablement scope => do
    let e ← get
    let (found, registry) := e.registry.setEnabled id enablement scope
    set { e with registry }
    return .bool found
  | unregister id scope => do
    let e ← get
    let (rule?, registry) := e.registry.unregister id scope
    set { e with registry }
    return .ofText? (rule?.map (·.id))
  | clearScope scope => silently (Engine.onRegistry (·.clearScope scope))
  | checkpoint name => do
    let n ← Engine.onStore Layered.checkpoint
    modify fun e => { e with host := { e.host with logs := (name, n) :: e.host.logs } }
    return .null
  | restore name => do silently (Engine.onStore (Layered.restore (← logOf name)))
  | commit name => do silently (Engine.onStore (Layered.commit (← logOf name)))
  | registerAction action handler => silently (Engine.registerAction action handler)
  | setFallback handler =>
    silently (modify fun e => { e with dispatcher := e.dispatcher.setFallback handler })
  | unregisterAction action => do
    let e ← get
    let (handler?, dispatcher) := e.dispatcher.unregister action
    set { e with dispatcher }
    return .bool handler?.isSome
  | .raise message => throw (.hostRaised message)
  | call c => do
    let command ← Attempt.ofExcept (Operation.resolve Layered.Command.table c)
    Engine.onStore command.run

def noteCall (call : ActionCall) : Attempt Scripted Unit :=
  modify fun e =>
    { e with host := { e.host with calls := ⟨call, []⟩ :: e.host.calls } }

def keep (outcome : Except Fault Document) : Attempt Scripted Unit :=
  modify fun e =>
    let calls :=
      match e.host.calls with
      | [] => []
      | c :: cs => { c with kept := c.kept ++ [outcome] } :: cs
    { e with host := { e.host with calls } }

/-- A fault as it leaves a handler, worded by the schema library where that is
    what refused a document. -/
def escaping (schemaReport : Document → String) : Fault → Fault
  | .refused (.notRuleSet d) =>
    .hostRaised s!"{(Refusal.notRuleSet d).message}: {schemaReport d}"
  | f => f

/-- Carries the steps of a handler out. -/
def react : Handler → Attempt Scripted Unit
  | [] => pure ()
  | (kept, step) :: rest => do
    let outcome ← (step.runWith (throw .alreadyDraining)).caught
    if kept then keep outcome
    else
      let report := (← get).host.schemaReport
      discard (Attempt.ofExcept (outcome.mapError (escaping report)))
    react rest

/-- What the handlers of a script do: note the call, then carry out their
    steps. -/
def host : Host Handler HostState := fun handler call => do
  noteCall call
  react handler

def run (step : Step) : Attempt Scripted Document := step.runWith (Engine.tick host)

/-- What a step did: its outcome, the calls of handlers, and the log. -/
structure Performed where
  outcome : Except Fault Document
  calls : List CallRecord
  log : List LogEntry

def perform (step : Step) (e : Scripted) : Performed × Scripted :=
  let (outcome, e) := step.run.on { e with log := [], host := { e.host with calls := [] } }
  (⟨outcome, e.host.calls.reverse, e.log⟩, e)

/-- An engine for a script, fresh or with a rule set loaded. -/
def start (config : Config) (sink : Sink) (rs? : Option RuleSet)
    (schemaReport : Document → String) : Except Fault Scripted :=
  let e : Scripted := .ofConfig config sink ⟨[], [], schemaReport⟩
  match rs? with
  | none => .ok e
  | some rs =>
    match (Engine.load rs Registry.globalScope).on e with
    | (.ok _, e) => .ok e
    | (.error f, _) => .error f

end Step

end Cascade
