-- SUMMARY: An engine that runs each rule on a private copy of the store, and the proof that undoing in place comes to the same.
import Cascade.Proofs.Engine.Accounts
import Cascade.Proofs.Registry.Stations

/-! # Copies instead of undoing

The reference processes an event without any checkpoint: a rule runs its
modifications on a copy of the store, and the copy is adopted if all of them
succeed and forgotten if one fails. The engine writes in place instead and
undoes the writes of a rule that fails. A **world** is what the two have in
common, and the engine takes the world through the same changes. -/

namespace Cascade

open Attempt Layered

/-! ## The reference -/

/-- What an event is processed in: the facts, the pending events, the issues,
    the rules that fired, the actions that were called, and the state of the
    host. -/
structure World (ω : Type) where
  store : Layered
  queue : List Event
  issues : List Issue
  firings : List Rule
  calls : List ActionCall
  host : ω

namespace World

variable {η ω : Type}

def blamed (i : Issue) (w : World ω) : World ω := { w with issues := w.issues ++ [i] }

/-- The issue that a handler raises by failing with a fault of some text. -/
def failure (text action : String) (rule : Rule) (event : Event) : Issue :=
  .ofText .actionFailed s!"Action {Text.quoted action} failed: {text}" (some rule.id)
    (some event.id)

/-- Runs modifications in order on a copy of a store and gives, if all of them
    succeed, the events that follow and the copy. -/
def modified (look : Lookup) (layer : LayerName) :
    List Modification → Layered → Except Fault (List Document × Layered)
  | [], copy => .ok ([], copy)
  | m :: ms, copy =>
    match (m.apply look (.named layer)).on copy with
    | (.error f, _) => .error f
    | (.ok changed, copy) => do
      let (outputs, copy) ← modified look layer ms copy
      return (m.outputs changed ++ outputs, copy)

/-- Calls the handler of an action, if it has one, with the given facts. Only a
    fault that cannot be worded is no issue. -/
def called (react : Reaction η ω) (dispatcher : Dispatcher η) (rule : Rule) (event : Event)
    (facts : Facts) (w : World ω) (action : String) : Except Fault (World ω) :=
  match dispatcher.handler? action with
  | none => .ok w
  | some handler =>
    let call : ActionCall := ⟨action, rule.id, facts⟩
    match (react handler call).on w.host with
    | (.ok _, host) => .ok { w with host, calls := w.calls ++ [call] }
    | (.error f, host) => do
      let text ← f.wording
      return blamed (failure text action rule event) { w with host, calls := w.calls ++ [call] }

/-- What becomes of a rule that cannot be evaluated: an issue, unless the fault
    is not one of evaluation. -/
def recovered (f : Fault) (rule : Rule) (event : Event) (w : World ω) :
    Except Fault (World ω × Bool) :=
  if f.isEvaluation then .ok (blamed (Engine.blame f rule event) w, false) else .error f

/-- Calls the actions of a rule that fires, with the facts as they are. -/
def acted (react : Reaction η ω) (dispatcher : Dispatcher η) (event : Event) (rule : Rule)
    (w : World ω) : Except Fault (World ω) :=
  rule.actions.foldlM (called react dispatcher rule event w.store.snapshot)
    { w with firings := w.firings ++ [rule] }

/-- Lets a rule fire: calls its actions and enqueues the events that follow. -/
def fired (react : Reaction η ω) (dispatcher : Dispatcher η) (event : Event) (rule : Rule)
    (outputs : List Document) (w : World ω) : Except Fault (World ω) := do
  let after ← acted react dispatcher event rule w
  let events ← (outputs ++ rule.outputs.map Document.str).mapM fun id =>
    Event.make id [] event.root (some rule.id)
  return { after with queue := after.queue ++ events }

/-- Applies a rule to an event; says also whether the event is consumed. -/
def applied (react : Reaction η ω) (dispatcher : Dispatcher η) (layer : LayerName)
    (event : Event) (rule : Rule) (w : World ω) : Except Fault (World ω × Bool) :=
  match rule.condition.check (event.lookup w.store) with
  | .error f => recovered f rule event w
  | .ok false => .ok (w, false)
  | .ok true =>
    match modified event.lookup layer rule.modifications w.store with
    | .error f => recovered f rule event w
    | .ok (outputs, copy) => do
      let after ← fired react dispatcher event rule outputs { w with store := copy }
      return (after, rule.consumes)

/-- Applies rules to an event in order, until one consumes it. -/
def appliedAll (react : Reaction η ω) (dispatcher : Dispatcher η) (layer : LayerName)
    (event : Event) : List Rule → World ω → Except Fault (World ω)
  | [], w => .ok w
  | rule :: rest, w => do
    let (w, consumed) ← applied react dispatcher layer event rule w
    if consumed then return w else appliedAll react dispatcher layer event rest w

def processed (react : Reaction η ω) (event : Event) (e : Engine η ω) :
    Except Fault (World ω) := do
  let rules ← e.registry.rulesForEvent event.id
  appliedAll react e.dispatcher e.config.layer event rules
    ⟨e.store, e.queue.pending, [], [], [], e.host⟩

end World

namespace Engine

variable {η ω : Type}

/-! ## Following the reference -/

/-- An engine holds a world: facts, pending events and the state of the host. -/
structure Holds (e : Engine η ω) (w : World ω) : Prop where
  store : w.store = e.store
  queue : w.queue = e.queue.pending
  host : w.host = e.host

/-- An engine has followed a world from one state to the next: it holds the
    world again, has reported what happened to the world, and apart from sink
    and log nothing else of it has changed. -/
structure Follows (e : Engine η ω) (w : World ω) (r : Report) (e' : Engine η ω)
    (w' : World ω) : Prop extends Holds e' w' where
  issues : w'.issues = w.issues ++ r.issues
  firings : w'.firings = w.firings ++ r.fired
  calls : w'.calls = w.calls ++ r.calls
  others : e' = { e with
    store := e'.store, queue := e'.queue, host := e'.host, sink := e'.sink, log := e'.log }

namespace Follows

variable {e e₁ e₂ : Engine η ω} {w w₁ w₂ : World ω} {r r' : Report}

theorem rest (h : Holds e w) : Follows e w .empty e w :=
  { h with
    issues := (List.append_nil _).symm
    firings := (List.append_nil _).symm
    calls := (List.append_nil _).symm
    others := rfl }

theorem append (h : Follows e w r e₁ w₁) (h' : Follows e₁ w₁ r' e₂ w₂) :
    Follows e w (r ++ r') e₂ w₂ :=
  { h'.toHolds with
    issues := by rw [Report.issues_append, h'.issues, h.issues, List.append_assoc]
    firings := by rw [Report.fired_append, h'.firings, h.firings, List.append_assoc]
    calls := by rw [Report.calls_append, h'.calls, h.calls, List.append_assoc]
    others := by rw [h'.others, h.others] }

/-- A log entry is nothing to the world. -/
theorem noted (h : Follows e w r e₁ w₁) (entry : LogEntry) :
    Follows e w r { e₁ with log := e₁.log ++ [entry] } w₁ :=
  { h with others := by rw [h.others] }

/-- An issue goes to the sink and into the world. -/
theorem raised (h : Follows e w r e₁ w₁) (i : Issue) :
    Follows e w (r ++ .issue i) (e₁.told i) (w₁.blamed i) :=
  h.append
    { rest h.toHolds with
      store := h.store
      queue := h.queue
      host := h.host
      issues := rfl
      others := rfl }

end Follows

/-! ## Calling and putting out -/

variable (react : Reaction η ω) (event : Event) (rule : Rule)

/-- An action is called in the world as well, and the call leaves the facts alone. -/
theorem dispatch_follows {e : Engine η ω} {w : World ω} (h : Holds e w) (facts : Facts)
    (action : String) :
    (dispatch (.ofReaction react) rule event facts action).Agrees e
      (w.called react e.dispatcher rule event facts action)
      fun w' r e' => w'.store = w.store ∧ Follows e w r e' w' := by
  rw [dispatch, World.called]
  refine .after (on_get e) ?_
  cases e.dispatcher.handler? action with
  | none => exact .of_ok rfl ⟨rfl, (Follows.rest h).noted _⟩
  | some handler =>
    let call : ActionCall := ⟨action, rule.id, facts⟩
    have called (host : ω) : Follows e w (.call call) { e with host }
        { w with host, calls := w.calls ++ [call] } :=
      { Follows.rest h with
        store := h.store
        queue := h.queue
        host := rfl
        calls := rfl
        others := rfl }
    dsimp only
    rw [h.host]
    have answered : (Host.ofReaction react handler call).caught.on e
        = (.ok ((react handler call).on e.host).1,
          { e with host := ((react handler call).on e.host).2 }) := rfl
    refine .after answered ?_
    rcases (react handler call).on e.host with ⟨f | ⟨⟩, host⟩
    · refine .bind (.of_idle (on_ofExcept _ _)) ?_
      rintro text _ _ - ⟨rfl, rfl⟩
      exact .of_ok rfl ⟨rfl, (called host).raised (World.failure text action rule event)⟩
    · exact .of_ok rfl ⟨rfl, called host⟩

theorem dispatchAll_follows {e : Engine η ω} {w : World ω} (h : Holds e w) (facts : Facts)
    (actions : List String) :
    (dispatchAll (.ofReaction react) rule event facts actions).Agrees e
      (actions.foldlM (World.called react e.dispatcher rule event facts) w)
      fun w' r e' => w'.store = w.store ∧ Follows e w r e' w' := by
  induction actions generalizing e w with
  | nil => exact .of_ok rfl ⟨rfl, .rest h⟩
  | cons action rest ih =>
    rw [dispatchAll, List.foldlM_cons]
    refine .bind (dispatch_follows react event rule h facts action) ?_
    rintro w₁ r₁ e₁ - ⟨store, follows⟩
    have same : e₁.dispatcher = e.dispatcher := by rw [follows.others]
    have others := ih follows.toHolds
    rw [same] at others
    refine others.then_pure ?_
    rintro w₂ r₂ e₂ ⟨store', follows'⟩
    exact ⟨store'.trans store, follows.append follows'⟩

theorem putOut_follows {e : Engine η ω} {w : World ω} (h : Holds e w) (ids : List Document) :
    (putOut rule event ids).Agrees e
      (ids.mapM fun id => Event.make id [] event.root (some rule.id))
      fun events r e' => Follows e w r e' { w with queue := w.queue ++ events } := by
  induction ids generalizing e w with
  | nil =>
    rw [List.mapM_nil]
    refine .of_ok rfl ?_
    rw [List.append_nil]
    exact .rest h
  | cons id rest ih =>
    rw [List.mapM_cons, putOut]
    refine .bind (.of_idle (on_ofExcept _ _)) ?_
    rintro out _ _ - ⟨rfl, rfl⟩
    have put : Follows e w (.output out) { e with queue := e.queue.push out }
        { w with queue := w.queue ++ [out] } :=
      { Follows.rest h with
        store := h.store
        queue := congrArg (· ++ [out]) h.queue
        host := h.host
        others := rfl }
    refine .after (on_modify _ _) (.bind (ih put.toHolds) fun events r e' _ follows => ?_)
    have all := put.append follows
    rw [List.append_assoc] at all
    exact .of_ok rfl all

/-! ## Applying rules -/

/-- A rule that fires does so in the world as well, and leaves the facts alone. -/
theorem fire_follows {e : Engine η ω} {w : World ω} (h : Holds e w) (outputs : List Document) :
    (fire (.ofReaction react) rule event outputs).Agrees e
      (w.fired react e.dispatcher event rule outputs)
      fun w' r e' => w'.store = w.store ∧ Follows e w r e' w' := by
  let entry : LogEntry :=
    ⟨.debug, .str "rule fired", [("rule_id", .str rule.id), ("event_id", .str event.id)]⟩
  have follows : Follows e w (.rule rule) e { w with firings := w.firings ++ [rule] } :=
    { Follows.rest h with
      store := h.store
      queue := h.queue
      host := h.host
      firings := rfl }
  have noted := follows.noted entry
  -- the actions are called with the facts of the adopted copy, which the calls leave alone
  have seen : w.store.snapshot = e.store.snapshot := congrArg Layered.snapshot h.store
  have calls := dispatchAll_follows react event rule noted.toHolds e.store.snapshot rule.actions
  have note_on : (note .debug "rule fired"
      [("rule_id", .str rule.id), ("event_id", .str event.id)]).on e
      = (.ok ⟨⟩, { e with log := e.log ++ [entry] }) := rfl
  rw [fire, World.fired, World.acted, seen]
  refine .after note_on (.after (on_get _) (.bind calls ?_))
  rintro w₁ r₁ e₁ - ⟨store, follows₁⟩
  refine .bind (putOut_follows event rule follows₁.toHolds _) fun events r e' _ follows₂ => ?_
  exact .of_ok rfl ⟨store, (noted.append follows₁).append follows₂⟩

theorem modified_eq (look : Lookup) (layer : LayerName) (ms : List Modification) (db : Layered) :
    World.modified look layer ms db = match (applyAll look layer ms).on db with
      | (.error f, _) => .error f
      | (.ok outputs, copy) => .ok (outputs, copy) := by
  induction ms generalizing db with
  | nil => rfl
  | cons m ms ih =>
    rw [World.modified, applyAll, on_bind]
    rcases (m.apply look (.named layer)).on db with ⟨f | changed, copy⟩
    · rfl
    · simp only [ih, on_bind]
      rcases (applyAll look layer ms).on copy with ⟨f | later, copy'⟩ <;> rfl

/-- A rule comes to the same in place and on a copy, with a checkpoint free for
    it if it holds. -/
theorem applyRule_follows {e : Engine η ω} {w : World ω} (h : Holds e w)
    (ready : rule.condition.check (event.lookup e.store) = .ok true →
      e.store.journal.active = none) :
    (applyRule (.ofReaction react) event rule).Agrees e
      (w.applied react e.dispatcher e.config.layer event rule)
      fun result outcome e' => outcome.consumed = result.2 ∧
        e'.store.journal = e.store.journal ∧ Follows e w outcome.report e' result.1 := by
  have rest := Follows.rest h
  unfold Agrees
  rw [applyRule_on, World.applied, h.store]
  cases holds : rule.condition.check (event.lookup e.store) with
  | error f =>
    cases hf : f.isEvaluation with
    | false => simp only [World.recovered, hf, Bool.false_eq_true, if_false]
    | true =>
      simp only [World.recovered, hf, if_true]
      exact ⟨_, _, rfl, rfl, rfl, rest.raised (blame f rule event)⟩
  | ok truth =>
    cases truth with
    | false => exact ⟨_, _, rfl, rfl, rfl, rest⟩
    | true =>
      have idle := ready holds
      have writing := writing_applyAll event.blind_lookup e.config.layer rule.modifications
      simp only [modified_eq, transaction_on writing idle]
      rcases ha : (applyAll event.lookup e.config.layer rule.modifications).on e.store
        with ⟨f | outputs, copy⟩
      · cases hf : f.isEvaluation with
        | false => simp only [World.recovered, settled, hf, Bool.false_eq_true, if_false]
        | true =>
          simp only [World.recovered, settled, hf, if_true]
          exact ⟨_, _, rfl, rfl, rfl, rest.raised (blame f rule event)⟩
      · have adopted : Holds { e with store := copy } { w with store := copy } :=
          { h with store := rfl }
        have kept : copy.journal = e.store.journal := by
          have steps := writing.takes e.store
          rw [ha] at steps
          exact journal_of_writes steps idle
        refine Agrees.bind (fire_follows react event rule adopted outputs) ?_
        rintro w' r e' - ⟨same, follows⟩
        refine .of_ok rfl ⟨rfl, ?_, ?_⟩
        · rw [← follows.store, same]
          exact kept
        · exact
            { follows.toHolds with
              issues := follows.issues
              firings := follows.firings
              calls := follows.calls
              others := follows.others }

namespace Quarrel

/-- Spends the gold and then divides it by nothing. -/
def spoil : Rule :=
  ⟨"spoil", "feast", .always,
    [⟨.name "gold", none, .set (.constant (.int 0))⟩,
      ⟨.name "gold", none, .combine .div (.constant (.int 0))⟩],
    ["shout"], ["anger"], .bool false, .int 1, .bool true⟩

/-- Spreads the fame of the feast. -/
def praise : Rule :=
  ⟨"praise", "feast", .always, [⟨.name "fame", none, .increment (.constant (.int 1))⟩],
    ["sing"], ["joy"], .bool true, .int 0, .bool true⟩

/-- An engine with both rules and a handler for every action. -/
def engine : Engine Unit Nat :=
  { (ofConfig .default (.collecting []) 0 : Engine Unit Nat) with
    store := .ofFacts (.ofList [("gold", .int 5)])
    registry := Registry.empty.append Registry.globalScope [spoil, praise]
    dispatcher := ⟨[], some ()⟩ }

end Quarrel

end Engine

end Cascade
