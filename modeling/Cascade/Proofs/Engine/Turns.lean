-- SUMMARY: The turns of a tick: every application of a rule to an event in it, with the engine as it was then.
import Cascade.Proofs.Engine.Passes
import Cascade.Proofs.Registry.Stations

/-! # Turns

In a tick rules take turns: for every event that is processed, the rules on its
route are applied one after the other until one consumes the event or fails
altogether. What the tick did is what was done in its turns, and if it fails it
does so in one of them. -/

namespace Cascade

open Attempt

/-- What comes after an attempt that succeeds; nothing comes after one that
    fails. -/
def Attempt.onward {σ α τ : Type} (a : Attempt σ α) (s : σ) (next : α → σ → List τ) : List τ :=
  match a.on s with
  | (.ok x, s') => next x s'
  | (.error _, _) => []

theorem Attempt.onward_of_ok {σ α τ : Type} {a : Attempt σ α} {s s' : σ} {x : α}
    (h : a.on s = (.ok x, s')) (next : α → σ → List τ) : a.onward s next = next x s' := by
  rw [onward, h]

theorem Attempt.onward_of_error {σ α τ : Type} {a : Attempt σ α} {s s' : σ} {f : Fault}
    (h : a.on s = (.error f, s')) (next : α → σ → List τ) : a.onward s next = [] := by
  rw [onward, h]

/-- What is made of all that comes after an attempt. -/
theorem Attempt.flatMap_onward {σ α τ β : Type} (a : Attempt σ α) (s : σ) (next : α → σ → List τ)
    (g : τ → List β) :
    (a.onward s next).flatMap g = a.onward s fun x s' => (next x s').flatMap g := by
  unfold onward
  rcases a.on s with ⟨f | x, s'⟩ <;> rfl

/-- What holds of all that comes after an attempt that succeeds. -/
theorem Attempt.forall_onward {σ α τ : Type} {a : Attempt σ α} {s : σ} {next : α → σ → List τ}
    {P : τ → Prop} (h : ∀ x s', a.on s = (.ok x, s') → ∀ t ∈ next x s', P t) :
    ∀ t ∈ a.onward s next, P t := by
  rcases ha : a.on s with ⟨f | x, s'⟩
  · rw [onward_of_error ha]
    exact List.forall_mem_nil _
  · rw [onward_of_ok ha]
    exact h x s' ha

namespace Engine

variable {η ω : Type}

/-- A rule that is applied to an event: the scope that it is registered in, and
    the engine before. -/
structure Turn (η ω : Type) where
  event : Event
  scope : String
  rule : Rule
  before : Engine η ω

namespace Turn

def result (host : Host η ω) (t : Turn η ω) : Except Fault Outcome :=
  ((applyRule host t.event t.rule).on t.before).1

/-- What is reported of a turn; one that fails reports nothing. -/
def report (host : Host η ω) (t : Turn η ω) : Report :=
  ((t.result host).toOption.map (·.report)).getD .empty

theorem report_of_ok {host : Host η ω} {event : Event} {rule : Rule} {e e' : Engine η ω}
    {outcome : Outcome} (h : (applyRule host event rule).on e = (.ok outcome, e'))
    (scope : String) : (⟨event, scope, rule, e⟩ : Turn η ω).report host = outcome.report := by
  rw [report, result, h]
  rfl

end Turn

/-! ## The turns of events, passes and ticks -/

def turnsOn (host : Host η ω) (event : Event) :
    List (String × Rule) → Engine η ω → List (Turn η ω)
  | [], _ => []
  | (scope, rule) :: rest, e =>
    ⟨event, scope, rule, e⟩ :: (applyRule host event rule).onward e fun outcome e' =>
      if outcome.consumed then [] else turnsOn host event rest e'

/-- After a rule that comes to an end, the turns go on unless it consumes the
    event. -/
theorem turnsOn_cons {host : Host η ω} {event : Event} {rule : Rule} {scope : String}
    {outcome : Outcome} {rest : List (String × Rule)} {e e' : Engine η ω}
    (h : (applyRule host event rule).on e = (.ok outcome, e')) :
    turnsOn host event ((scope, rule) :: rest) e
      = ⟨event, scope, rule, e⟩
        :: if outcome.consumed then [] else turnsOn host event rest e' := by
  rw [turnsOn, onward_of_ok h]

def turnsAt (host : Host η ω) (event : Event) (e : Engine η ω) : List (Turn η ω) :=
  (Attempt.reading (·.registry.rulesForEvent event.id)).onward e fun _ e =>
    turnsOn host event (e.registry.route event.id) e

def turnsOf (host : Host η ω) : List Event → Engine η ω → List (Turn η ω)
  | [], _ => []
  | event :: rest, e =>
    turnsAt host event e ++ (process host event).onward e fun _ e' => turnsOf host rest e'

/-- The turns of at most some number of passes. -/
def turnsIn (host : Host η ω) : Nat → Engine η ω → List (Turn η ω)
  | 0, _ => []
  | n + 1, e =>
    if e.queue.pending = [] then []
    else
      turnsOf host e.queue.pending { e with queue := .empty }
        ++ (pass host).onward e fun _ e' => turnsIn host n e'

def turns (host : Host η ω) (e : Engine η ω) : List (Turn η ω) :=
  turnsIn host (e.config.maxDepth + 1) { e with draining := true }

end Engine

end Cascade
