-- SUMMARY: Draining the queue as beats: whatever comes of it, the engine only goes through transactions of rules, calls of handlers, and changes of its queue, its sink and its log.
import Cascade.Proofs.Engine.Passes

/-! # Beats

A trail of acts tells what an application of rules did that came to an end.
Draining the queue may also fail half-way. What happens to the engine until then
is less telling, but it is of three kinds only, the **beats** of a tick: a rule
has its transaction, a handler is called, or something changes that no rule sees.
What each beat preserves therefore every tick preserves.

Which rules have their transactions is told where rules are applied. Where events
are processed it depends on the registry as it is then, so there beats are those
of any rule, or else the steps of each event are put together. -/

namespace Cascade

open Attempt

namespace Engine

variable {η ω : Type}

/-- One thing that happens to an engine while rules are applied. -/
inductive Beat (host : Host η ω) (rules : Rule → Prop) : Engine η ω → Engine η ω → Prop
  | told (e : Engine η ω) (sink : Sink) (queue : Queue) (log : List LogEntry) :
      Beat host rules e { e with sink, queue, log }
  | ruled (e : Engine η ω) (event : Event) {rule : Rule} :
      rules rule →
      Beat host rules e
        { e with
          store := ((transaction (applyAll event.lookup e.config.layer rule.modifications)).on
            e.store).2 }
  | called (e : Engine η ω) (handler : η) (call : ActionCall) :
      Beat host rules e ((host handler call).on e).2

variable (host : Host η ω) (event : Event) {rules : Rule → Prop} (rule : Rule)

/-! ## Rules -/

theorem beats_note (level : LogLevel) (message : String) (fields : List (String × Document)) :
    Takes (Beat host rules) (note level message fields : Attempt (Engine η ω) Unit) :=
  .modify fun e => .told e e.sink e.queue _

theorem beats_raise (i : Issue) : Takes (Beat host rules) (raise i : Attempt (Engine η ω) Report) :=
  Takes.bind (.modify fun e => .told e _ e.queue _) fun _ _ => .pure _

theorem beats_dispatch (facts : Facts) (action : String) :
    Takes (Beat host rules) (dispatch host rule event facts action) := by
  refine Takes.get fun e => ?_
  cases e.dispatcher.handler? action with
  | none => exact Takes.bind (beats_note host _ _ _) (fun _ _ => .pure _) e
  | some handler =>
    have calls : Takes (Beat host rules) (host handler ⟨action, rule.id, facts⟩) :=
      fun e => .single (.called e handler _)
    refine Takes.bind calls.caught (fun outcome _ => ?_) e
    cases outcome with
    | ok _ => exact .pure _
    | error f =>
      exact (Takes.ofExcept _).bind fun _ _ => (beats_raise host _).bind fun _ _ => .pure _

theorem beats_dispatchAll (facts : Facts) (actions : List String) :
    Takes (Beat host rules) (dispatchAll host rule event facts actions) := by
  induction actions with
  | nil => exact .pure _
  | cons action rest ih =>
    exact (beats_dispatch host event rule facts action).bind fun _ _ => ih.bind fun _ _ => .pure _

theorem beats_putOut (ids : List Document) :
    Takes (Beat host rules) (putOut rule event ids : Attempt (Engine η ω) Report) := by
  induction ids with
  | nil => exact .pure _
  | cons id rest ih =>
    refine (Takes.ofExcept _).bind fun out _ => Takes.bind ?_ fun _ _ => ih.bind fun _ _ => .pure _
    exact .modify fun e => .told e e.sink _ e.log

theorem beats_fire (outputs : List Document) :
    Takes (Beat host rules) (fire host rule event outputs) := by
  refine (beats_note host _ _ _).bind fun _ _ => Takes.get fun e => ?_
  refine Takes.bind (beats_dispatchAll host event rule _ _) (fun called _ => ?_) e
  exact (beats_putOut host event rule _).bind fun put _ => .pure _

variable {rule} in
theorem beats_applyRule (allowed : rules rule) :
    Takes (Beat host rules) (applyRule host event rule) := by
  refine Takes.get fun e => ?_
  cases rule.condition.check (event.lookup e.store) with
  | error f =>
    dsimp only
    split
    · exact Takes.bind (beats_raise host _) (fun _ _ => .pure _) e
    · exact .refl
  | ok truth =>
    cases truth with
    | false => exact .refl
    | true =>
      have ruled : Beat host rules e _ := .ruled e event allowed
      dsimp only
      unfold onStore
      rw [on_bind, on_zoom]
      -- the transaction is one beat, whether it fails, is undone or lets the rule fire
      rcases ht : (transaction (applyAll event.lookup e.config.layer rule.modifications)).on e.store
        with ⟨f | f | outputs, store⟩ <;> rw [ht] at ruled
      · exact .single ruled
      · exact .head ruled (Takes.bind (beats_raise host _) (fun _ _ => .pure _) _)
      · exact .head ruled (Takes.bind (beats_fire host event rule outputs) (fun _ _ => .pure _) _)

theorem beats_applyRules {batch : List Rule} (allowed : ∀ rule ∈ batch, rules rule) :
    Takes (Beat host rules) (applyRules host event batch) := by
  induction batch with
  | nil => exact .pure _
  | cons rule rest ih =>
    obtain ⟨first, others⟩ := List.forall_mem_cons.mp allowed
    refine (beats_applyRule host event first).bind fun outcome _ => ?_
    split
    · exact .pure _
    · exact (ih others).bind fun _ _ => .pure _

/-! ## Events -/

theorem beats_process : Takes (Beat host fun _ => True) (process host event) :=
  (Takes.reading _).bind fun _ _ =>
    (beats_applyRules host event fun _ _ => trivial).bind fun _ _ => .pure _

section Passes

variable {step : Engine η ω → Engine η ω → Prop} {host}

theorem takes_processAll (processes : ∀ event, Takes step (process host event))
    (batch : List Event) : Takes step (processAll host batch) := by
  induction batch with
  | nil => exact .pure _
  | cons event rest ih =>
    exact (processes event).bind fun _ _ => ih.bind fun _ _ => .pure _

/-! ## Passes -/

variable (tells : ∀ (e : Engine η ω) sink queue log, step e { e with sink, queue, log })

include tells

theorem takes_drain : Takes step (drain : Attempt (Engine η ω) (List Event)) :=
  fun e => .single (tells e e.sink .empty e.log)

theorem takes_overflow : Takes step (overflow : Attempt (Engine η ω) Report) := by
  intro e
  rw [on_overflow]
  cases e.config.overflow with
  | drop => exact .single (tells e _ _ _)
  | defer => exact .single (tells e _ _ _)

theorem takes_passes (processes : ∀ event, Takes step (process host event)) (allowed : Nat)
    (batch : List Event) : Takes step (passes host allowed batch) := by
  induction allowed generalizing batch with
  | zero =>
    rw [passes.eq_def]
    refine (takes_processAll processes batch).bind fun report _ => Takes.get fun e => ?_
    dsimp only
    split
    · exact .refl
    · exact Takes.bind (takes_overflow tells) (fun _ _ => .pure _) e
  | succ n ih =>
    rw [passes.eq_def]
    refine (takes_processAll processes batch).bind fun report _ => Takes.get fun e => ?_
    dsimp only
    split
    · exact .refl
    · exact Takes.bind (takes_drain tells) (fun next _ => (ih next).bind fun _ _ => .pure _) e

/-- Draining the queue gets the engine on by the steps that processing events
    takes and by changes of the queue, the sink and the log. -/
theorem takes_drainAll (processes : ∀ event, Takes step (process host event)) :
    Takes step (drainAll host) := by
  refine (takes_drain tells).bind fun batch _ => ?_
  split
  · exact .pure _
  · exact Takes.get fun e => takes_passes tells processes _ batch e

end Passes

/-- Whatever comes of draining the queue, it gets the engine on by beats. -/
theorem beats_drainAll : Takes (Beat host fun _ => True) (drainAll host) :=
  takes_drainAll .told (beats_process host)

end Engine

end Cascade
