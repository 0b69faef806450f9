-- SUMMARY: The accounts of a report: what a report of processed events says of the queue, the sink and the settings.
import Cascade.Proofs.Engine.Acts

/-! # Accounts

Handlers may do anything to an engine, so little can be said of an engine in
general. Handlers that leave the engine alone are **outward**: they change the
state of the host and nothing else. With those, a report of processed events is
a full account of what went into the queue and to the sink. -/

namespace Cascade

open Attempt

variable {η ω : Type}

/-! ## Outward handlers -/

/-- Handlers that change nothing of an engine but the state of the host. -/
def Host.IsOutward (host : Host η ω) : Prop :=
  ∀ handler call e, ∃ state, ((host handler call).on e).2 = { e with host := state }

/-- What handlers do that are given the call and the state of the host only. -/
abbrev Reaction (η ω : Type) := η → ActionCall → Attempt ω Unit

/-- Handlers that never see the engine. -/
def Host.ofReaction (react : Reaction η ω) : Host η ω := fun handler call =>
  (react handler call).zoom Engine.host fun host e => { e with host }

theorem Host.isOutward_ofReaction (react : Reaction η ω) : (Host.ofReaction react).IsOutward :=
  fun _ _ _ => ⟨_, rfl⟩

def Reaction.silent : Reaction η ω := fun _ _ => pure ()

def Reaction.counting : Reaction η Nat := fun _ _ => modify (· + 1)

namespace Engine

/-! ## Without an overflow -/

/-- An engine went on without an overflow: its settings are what they were, the
    issues went to the sink in order, none of them tells of an overflow, and
    nothing was dropped or deferred. -/
structure Smooth (e : Engine η ω) (r : Report) (e' : Engine η ω) : Prop where
  config : e'.config = e.config
  sink : e'.sink = r.issues.foldl (fun sink i => (sink.report i).1) e.sink
  shallow : ∀ i ∈ r.issues, i.kind ≠ .cascadeDepthExceeded
  exceeded : r.exceeded = false
  dropped : r.dropped = []
  deferred : r.deferred = []

namespace Smooth

variable {e e₁ e₂ : Engine η ω} {r r' : Report}

theorem rest (e : Engine η ω) : Smooth e .empty e := ⟨rfl, rfl, nofun, rfl, rfl, rfl⟩

theorem append (h : Smooth e r e₁) (h' : Smooth e₁ r' e₂) : Smooth e (r ++ r') e₂ where
  config := h'.config.trans h.config
  sink := by rw [Report.issues_append, List.foldl_append, h'.sink, h.sink]
  shallow := by
    intro i hi
    rcases List.mem_append.mp hi with hi | hi
    · exact h.shallow i hi
    · exact h'.shallow i hi
  exceeded := by rw [Report.exceeded_append, h.exceeded, h'.exceeded, Bool.or_false]
  dropped := by rw [Report.dropped_append, h.dropped, h'.dropped, List.append_nil]
  deferred := by rw [Report.deferred_append, h.deferred, h'.deferred, List.append_nil]

end Smooth

/-! ## Accounts of acts -/

/-- A report gives an account of how an engine processed some events, without an
    overflow: what was enqueued went to the end of the queue. -/
structure Accounts (batch : List Event) (e : Engine η ω) (r : Report) (e' : Engine η ω) :
    Prop extends Smooth e r e' where
  processed : r.processed = batch
  queue : e'.queue.pending = e.queue.pending ++ r.enqueued
  passes : r.passes = 0

namespace Accounts

variable {batch batch' : List Event} {e e₁ e₂ : Engine η ω} {r r' : Report}

theorem rest (e : Engine η ω) : Accounts [] e .empty e where
  toSmooth := .rest e
  processed := rfl
  queue := (List.append_nil _).symm
  passes := rfl

theorem event (event : Event) (e : Engine η ω) : Accounts [event] e (.event event) e :=
  { rest e with processed := rfl }

theorem append (h : Accounts batch e r e₁) (h' : Accounts batch' e₁ r' e₂) :
    Accounts (batch ++ batch') e (r ++ r') e₂ where
  toSmooth := h.toSmooth.append h'.toSmooth
  processed := by rw [Report.processed_append, h.processed, h'.processed]
  queue := by rw [Report.enqueued_append, h'.queue, h.queue, List.append_assoc]
  passes := by rw [Report.passes_append, h.passes, h'.passes]

end Accounts

variable {host : Host η ω} {event : Event} {rule : Rule} {e e' : Engine η ω} {r : Report}

/-- Acts process no event of their own and give an account of themselves. -/
theorem Act.accounts (outward : host.IsOutward) (h : Act host event rule e r e') :
    Accounts [] e r e' := by
  have nothing := Accounts.rest e
  cases h with
  | noted entry => exact { nothing with config := rfl }
  | raised i shallow =>
    refine { nothing with shallow := ?_, sink := rfl }
    intro j hj
    obtain rfl := List.mem_singleton.mp hj
    exact shallow
  | stored committed => exact { nothing with config := rfl }
  | fired => exact { nothing with config := rfl }
  | called call registered named =>
    obtain ⟨state, hs⟩ := outward _ call e
    rw [hs]
    exact { nothing with config := rfl }
  | put made => exact { nothing with queue := rfl }

theorem Trail.accounts (outward : host.IsOutward) {rules : List Rule}
    (h : Trail (fun e r e' => ∃ rule ∈ rules, Act host event rule e r e') e r e') :
    Accounts [] e r e' := by
  induction h with
  | rest e => exact .rest e
  | next first _ ih =>
    obtain ⟨rule, -, act⟩ := first
    exact (act.accounts outward).append ih

theorem process_accounts (outward : host.IsOutward)
    (h : (process host event).on e = (.ok r, e')) : Accounts [event] e r e' := by
  obtain ⟨rules, r', -, rfl, trail⟩ := process_trail h
  exact (Accounts.event event e).append (trail.accounts outward)

/-- Events that are processed in order are accounted for in order. -/
theorem processAll_accounts (outward : host.IsOutward) {batch : List Event}
    (h : (processAll host batch).on e = (.ok r, e')) : Accounts batch e r e' := by
  induction batch generalizing e r with
  | nil =>
    obtain ⟨rfl, rfl⟩ := of_pure_ok h
    exact .rest e
  | cons event rest ih =>
    obtain ⟨r₁, e₁, first, h⟩ := of_bind_ok h
    obtain ⟨r₂, e₂, others, h⟩ := of_bind_ok h
    obtain ⟨rfl, rfl⟩ := of_pure_ok h
    exact (process_accounts outward first).append (ih others)

end Engine

end Cascade
