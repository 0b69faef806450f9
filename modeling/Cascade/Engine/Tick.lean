-- SUMMARY: Ticks: draining the queue in passes, applying the rules that match, calling handlers, and stopping cascades that get too deep.
import Cascade.Engine.Basic
import Cascade.Engine.Report

/-! # Ticks

A tick drains the queue and processes the events in order. What the rules put
out while a pass runs makes up the next pass, and at most as many passes as
the settings allow follow the first one. A rule is applied as a whole or not
at all: its modifications run under a checkpoint, and if one of them cannot be
evaluated all of them are undone and an issue tells of it. -/

namespace Cascade

/-- What handlers do. They may do anything to the engine. -/
abbrev Host (η ω : Type) := η → ActionCall → Attempt (Engine η ω) Unit

namespace Engine

variable {η ω : Type}

/-! ## Issues -/

/-- Sends an issue and reports it. -/
def raise (i : Issue) : Attempt (Engine η ω) Report := do
  send i
  return .issue i

/-- Reports that a rule could not be evaluated on an event. -/
def raiseFault (f : Fault) (rule : Rule) (event : Event) :
    Attempt (Engine η ω) Report :=
  raise (.ofText (.ofFault f) f.message (some rule.id) (some event.id))

/-! ## Applying a rule -/

/-- Applies modifications in order and gives the events that follow. -/
def applyAll (look : Lookup) (layer : LayerName) :
    List Modification → Attempt Layered (List Document)
  | [] => pure []
  | m :: ms => do
    let changed ← m.apply look (.named layer)
    return m.outputs changed ++ (← applyAll look layer ms)

/-- Carries out an attempt under a checkpoint. If it fails in evaluation, its
    writes and the births among them are undone and the fault is given as a
    result; any other fault goes on and leaves the writes. The log of the
    checkpoint is forgotten. -/
def transaction {α : Type} (a : Attempt Layered α) : Attempt Layered (Except Fault α) := do
  let n ← Layered.checkpoint
  let births := (← get).births
  let outcome ← a.caught
  match outcome with
  | .ok _ => pure ()
  | .error f =>
    if f.isEvaluation then
      Layered.restore n
      modify fun db => { db with births }
  Layered.commit n
  modify fun db => { db with journal := db.journal.shrink }
  match outcome with
  | .ok a => return .ok a
  | .error f => if f.isEvaluation then return .error f else throw f

/-- Calls the handler of one action with the facts that the rule left. A
    handler that fails is reported, which takes a text of its fault: if there is
    none, the report fails in place of the handler. -/
def dispatch (host : Host η ω) (rule : Rule) (event : Event) (facts : Facts)
    (action : String) : Attempt (Engine η ω) Report := do
  match (← get).dispatcher.handler? action with
  | none => do
    note .debug "action unhandled" [("action_id", .str action), ("rule_id", .str rule.id)]
    return .empty
  | some handler =>
    let call : ActionCall := ⟨action, rule.id, facts⟩
    match ← (host handler call).caught with
    | .ok _ => return .call call
    | .error f => do
      let text ← Attempt.ofExcept f.wording
      let report ← raise (.ofText .actionFailed
        s!"Action {Text.quoted action} failed: {text}" (some rule.id) (some event.id))
      return .call call ++ report

def dispatchAll (host : Host η ω) (rule : Rule) (event : Event) (facts : Facts) :
    List String → Attempt (Engine η ω) Report
  | [] => return .empty
  | action :: rest => do
    let report ← dispatch host rule event facts action
    return report ++ (← dispatchAll host rule event facts rest)

/-- Enqueues the events that a rule puts out. -/
def putOut (rule : Rule) (event : Event) : List Document → Attempt (Engine η ω) Report
  | [] => return .empty
  | id :: rest => do
    let out ← Attempt.ofExcept (Event.make id [] event.root (some rule.id))
    modify fun e => { e with queue := e.queue.push out }
    return .output out ++ (← putOut rule event rest)

/-- Lets a rule fire whose modifications have been applied. -/
def fire (host : Host η ω) (rule : Rule) (event : Event) (outputs : List Document) :
    Attempt (Engine η ω) Report := do
  note .debug "rule fired" [("rule_id", .str rule.id), ("event_id", .str event.id)]
  let called ← dispatchAll host rule event (← get).store.snapshot rule.actions
  let put ← putOut rule event (outputs ++ rule.outputs.map .str)
  return .rule rule ++ called ++ put

/-- What a rule did to an event. -/
structure Outcome where
  report : Report
  consumed : Bool

def applyRule (host : Host η ω) (event : Event) (rule : Rule) :
    Attempt (Engine η ω) Outcome := do
  let e ← get
  match rule.condition.check (event.lookup e.store) with
  | .error f => do
    if f.isEvaluation then return ⟨← raiseFault f rule event, false⟩ else throw f
  | .ok false => return ⟨.empty, false⟩
  | .ok true => do
    let applied ← onStore
      (transaction (applyAll event.lookup e.config.layer rule.modifications))
    match applied with
    | .error f => return ⟨← raiseFault f rule event, false⟩
    | .ok outputs => return ⟨← fire host rule event outputs, rule.consumes⟩

/-! ## Processing events -/

/-- Applies rules to an event in order, until one consumes it. -/
def applyRules (host : Host η ω) (event : Event) :
    List Rule → Attempt (Engine η ω) Report
  | [] => return .empty
  | rule :: rest => do
    let outcome ← applyRule host event rule
    if outcome.consumed then return outcome.report
    return outcome.report ++ (← applyRules host event rest)

/-- Processes an event: the rules that match it are the ones registered when it
    comes up, and they have to be in order. -/
def process (host : Host η ω) (event : Event) : Attempt (Engine η ω) Report := do
  let rules ← Attempt.reading (·.registry.rulesForEvent event.id)
  return .event event ++ (← applyRules host event rules)

def processAll (host : Host η ω) : List Event → Attempt (Engine η ω) Report
  | [] => return .empty
  | event :: rest => do
    let report ← process host event
    return report ++ (← processAll host rest)

def drain : Attempt (Engine η ω) (List Event) := do
  let e ← get
  let (events, queue) := e.queue.drain
  set { e with queue }
  return events

/-! ## Passes -/

def overflowMessage (depth : Nat) (q : Queue) : String :=
  s!"Cascade depth {depth} exceeded with {q.size} pending event(s): "
    ++ ", ".intercalate q.ids ++ " (triggered by " ++ ", ".intercalate q.roots ++ ")"

/-- Gives up on the events that are left over: they are dropped or wait for the
    next tick, and an issue tells of it. -/
def overflow : Attempt (Engine η ω) Report := do
  let e ← get
  let left := e.queue
  let fate : Report ←
    match e.config.overflow with
    | .drop => do
      set { e with queue := .empty }
      pure (.dropping left.pending)
    | .defer => pure (.deferring left.pending)
  let report ← raise (.ofText .cascadeDepthExceeded
    (overflowMessage e.config.maxDepth left) none left.roots.head?)
  return fate ++ report

/-- Processes a batch of events and then, in further passes, what comes of
    them. With a depth of zero there are no further passes; else an overflow
    ends the passes when no more are allowed and events are left. -/
def passes (host : Host η ω) : Nat → List Event → Attempt (Engine η ω) Report
  | allowed, batch => do
    let report ← processAll host batch
    let report := Report.pass ++ report
    let e ← get
    if e.queue.isEmpty || e.config.maxDepth = 0 then return report
    match allowed with
    | 0 => return report ++ (← overflow)
    | n + 1 => do
      let next ← drain
      return report ++ (← passes host n next)

def drainAll (host : Host η ω) : Attempt (Engine η ω) Report := do
  let batch ← drain
  if batch.isEmpty then return .empty
  passes host (← get).config.maxDepth batch

def setDraining (b : Bool) : Attempt (Engine η ω) Unit :=
  modify fun e => { e with draining := b }

/-- Drains the queue and reports on it. A tick that is called while another one
    runs is refused. -/
def tick (host : Host η ω) : Attempt (Engine η ω) Report := do
  if (← get).draining then throw .alreadyDraining
  setDraining true
  let outcome ← (drainAll host).caught
  setDraining false
  Attempt.ofExcept outcome

end Engine

end Cascade
