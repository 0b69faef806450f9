-- SUMMARY: Engines that differ in what the application of a rule does not see: their rules, the depth that is allowed, and what they have told.
import Cascade.Proofs.Engine.Accounts

/-! # Engines that are kin

Applying a rule does not look at the other rules, at how deep cascades may go,
at what went to the sink and to the log, or at the mark that the engine is
draining. Engines that differ in these only are **kin**. With handlers that
never see the engine, what is applied to kin has one outcome and leaves kin. -/

namespace Cascade

open Attempt

namespace Engine

variable {η ω : Type}

/-- Two engines whose registries are related and that differ besides at most in
    the depth that is allowed, in sink and log, and in the mark that they drain
    their queues. -/
def Kin (rel : Registry → Registry → Prop) (e e' : Engine η ω) : Prop :=
  ∃ depth registry sink draining log, rel e.registry registry ∧
    e' = { e with
      config := { e.config with maxDepth := depth }, registry, sink, draining, log }

namespace Kin

variable {rel : Registry → Registry → Prop} {e e' : Engine η ω}

theorem queue (h : Kin rel e e') : e'.queue = e.queue := by
  obtain ⟨_, _, _, _, _, -, rfl⟩ := h
  rfl

theorem registry (h : Kin rel e e') : rel e.registry e'.registry := by
  obtain ⟨_, _, _, _, _, related, rfl⟩ := h
  exact related

/-- Engines stay kin when the same issue is sent to both of their sinks. -/
theorem told (h : Kin rel e e') (i : Issue) : Kin rel (e.told i) (e'.told i) := by
  obtain ⟨depth, registry, sink, draining, log, related, rfl⟩ := h
  exact ⟨depth, registry, _, draining, _, related, rfl⟩

/-- Kin are not told apart by what one of them has told. -/
theorem told_left (h : Kin rel e e') {i : Issue} : Kin rel (e.told i) e' := by
  obtain ⟨depth, registry, sink, draining, log, related, rfl⟩ := h
  exact ⟨depth, registry, sink, draining, log, related, rfl⟩

/-- Engines stay kin when both queues are emptied. -/
theorem emptied (h : Kin rel e e') :
    Kin rel { e with queue := .empty } { e' with queue := .empty } := by
  obtain ⟨depth, registry, sink, draining, log, related, rfl⟩ := h
  exact ⟨depth, registry, sink, draining, log, related, rfl⟩

theorem symm (h : Kin Eq e e') : Kin Eq e' e := by
  obtain ⟨depth, registry, sink, draining, log, rfl, rfl⟩ := h
  exact ⟨e.config.maxDepth, e.registry, e.sink, e.draining, e.log, rfl, rfl⟩

theorem trans {e'' : Engine η ω} (h : Kin Eq e e') (h' : Kin Eq e' e'') : Kin Eq e e'' := by
  obtain ⟨_, _, _, _, _, rfl, rfl⟩ := h
  obtain ⟨depth, registry, sink, draining, log, rfl, rfl⟩ := h'
  exact ⟨depth, e.registry, sink, draining, log, rfl, rfl⟩

end Kin

variable {rel : Registry → Registry → Prop} {react : Reaction η ω} {event : Event} {rule : Rule}

/-! ## Calling and putting out -/

theorem kin_raise (i : Issue) : Respects (Kin rel) (raise i : Attempt (Engine η ω) Report) := by
  intro e e' h
  rw [on_raise, on_raise]
  exact ⟨rfl, h.told i⟩

theorem kin_note (level : LogLevel) (message : String) (fields : List (String × Document)) :
    Respects (Kin rel) (note level message fields : Attempt (Engine η ω) Unit) := by
  refine .modify fun e e' h => ?_
  obtain ⟨depth, registry, sink, draining, log, related, rfl⟩ := h
  exact ⟨depth, registry, sink, draining, _, related, rfl⟩

/-- A handler that never sees the engine does the same to kin. -/
theorem kin_call (handler : η) (call : ActionCall) :
    Respects (Kin rel) (Host.ofReaction react handler call) := by
  intro e e' h
  obtain ⟨depth, registry, sink, draining, log, related, rfl⟩ := h
  exact ⟨rfl, depth, registry, sink, draining, log, related, rfl⟩

theorem kin_dispatch (facts : Facts) (action : String) :
    Respects (Kin rel) (dispatch (.ofReaction react) rule event facts action) := by
  unfold dispatch
  apply Respects.look
  · rintro e _ ⟨_, _, _, _, _, -, rfl⟩
    rfl
  · intro e
    cases e.dispatcher.handler? action with
    | none => exact (kin_note _ _ _).seq fun _ => .pure _
    | some handler =>
      refine (kin_call handler _).caught.seq fun outcome => ?_
      cases outcome with
      | ok _ => exact .pure _
      | error f => exact (Respects.ofExcept _).seq fun _ => (kin_raise _).seq fun _ => .pure _

theorem kin_dispatchAll (facts : Facts) (actions : List String) :
    Respects (Kin rel) (dispatchAll (.ofReaction react) rule event facts actions) := by
  induction actions with
  | nil => exact .pure _
  | cons action rest ih => exact (kin_dispatch facts action).seq fun _ => ih.seq fun _ => .pure _

theorem kin_putOut (ids : List Document) :
    Respects (Kin rel) (putOut rule event ids : Attempt (Engine η ω) Report) := by
  induction ids with
  | nil => exact .pure _
  | cons id rest ih =>
    refine (Respects.ofExcept _).seq fun out => ?_
    refine Respects.seq (.modify ?_) fun _ => ih.seq fun _ => .pure _
    rintro e _ ⟨depth, registry, sink, draining, log, related, rfl⟩
    exact ⟨depth, registry, sink, draining, log, related, rfl⟩

theorem kin_fire (outputs : List Document) :
    Respects (Kin rel) (fire (.ofReaction react) rule event outputs) := by
  refine (kin_note _ _ _).seq fun _ => ?_
  apply Respects.look
  · rintro e _ ⟨_, _, _, _, _, -, rfl⟩
    rfl
  · intro e
    exact (kin_dispatchAll _ _).seq fun _ => (kin_putOut _).seq fun _ => .pure _

/-! ## Rules and events -/

theorem kin_onStore {α : Type} (a : Attempt Layered α) :
    Respects (Kin rel) (onStore a : Attempt (Engine η ω) α) := by
  rintro e _ ⟨depth, registry, sink, draining, log, related, rfl⟩
  exact ⟨rfl, depth, registry, sink, draining, log, related, rfl⟩

/-- Of kin, a rule and an event make the same. -/
theorem kin_applyRule (event : Event) (rule : Rule) :
    Respects (Kin rel) (applyRule (.ofReaction react) event rule) := by
  unfold applyRule
  apply Respects.look
  · rintro e _ ⟨_, _, _, _, _, -, rfl⟩
    rfl
  · intro e
    cases rule.condition.check (event.lookup e.store) with
    | error f =>
      dsimp only
      split
      · exact (kin_raise _).seq fun _ => .pure _
      · exact .throw f
    | ok truth =>
      cases truth with
      | false => exact .pure _
      | true =>
        refine (kin_onStore _).seq fun applied => ?_
        cases applied with
        | error f => exact (kin_raise _).seq fun _ => .pure _
        | ok outputs => exact (kin_fire outputs).seq fun _ => .pure _

theorem kin_applyRules (event : Event) (rules : List Rule) :
    Respects (Kin rel) (applyRules (.ofReaction react) event rules) := by
  induction rules with
  | nil => exact .pure _
  | cons rule rest ih =>
    refine (kin_applyRule event rule).seq fun outcome => ?_
    cases outcome.consumed with
    | true => exact .pure _
    | false => exact ih.seq fun _ => .pure _

/-- Kin with the same rules process an event in the same way. -/
theorem kin_process (event : Event) :
    Respects (Kin Eq) (process (.ofReaction react) event) := by
  refine Respects.seq (.reading ?_) fun rules => (kin_applyRules event rules).seq fun _ => .pure _
  rintro e _ ⟨_, _, _, _, _, rfl, rfl⟩
  rfl

theorem kin_processAll (batch : List Event) :
    Respects (Kin Eq) (processAll (.ofReaction react) batch) := by
  induction batch with
  | nil => exact .pure _
  | cons event rest ih => exact (kin_process event).seq fun _ => ih.seq fun _ => .pure _

theorem kin_drain : Respects (Kin rel) (drain : Attempt (Engine η ω) (List Event)) := by
  rintro e _ ⟨depth, registry, sink, draining, log, related, rfl⟩
  exact ⟨rfl, depth, registry, sink, draining, log, related, rfl⟩

end Engine

end Cascade
