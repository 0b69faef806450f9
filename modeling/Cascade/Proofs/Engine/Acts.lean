-- SUMMARY: What a rule may do to an engine, one act after the other: processing an event as a trail of acts that its report adds up.
import Cascade.Proofs.Engine.Transaction

/-! # Acts

Whatever the rules of an event do to an engine they do by acts of a few kinds:
a log entry, an issue, a committed transaction, a rule that fires, a call of a
handler, an event put into the queue. An application of rules that comes to an
end is a trail of such acts, and its report is the sum of theirs. What holds of
every act and of trails of such acts therefore holds of every application. -/

namespace Cascade

open Attempt

namespace Engine

variable {η ω : Type}

/-! ## Trails -/

/-- Steps one after the other, with their reports added up. -/
inductive Trail (step : Engine η ω → Report → Engine η ω → Prop) :
    Engine η ω → Report → Engine η ω → Prop
  | rest (e : Engine η ω) : Trail step e .empty e
  | next {e e₁ e₂ : Engine η ω} {r r' : Report} :
      step e r e₁ → Trail step e₁ r' e₂ → Trail step e (r ++ r') e₂

namespace Trail

variable {step step' : Engine η ω → Report → Engine η ω → Prop} {e e₁ e₂ : Engine η ω}
  {r r' : Report}

theorem single (h : step e r e₁) : Trail step e r e₁ := by
  rw [← Report.append_empty r]
  exact .next h (.rest e₁)

theorem append (h : Trail step e r e₁) (h' : Trail step e₁ r' e₂) :
    Trail step e (r ++ r') e₂ := by
  induction h with
  | rest e =>
    rw [Report.empty_append]
    exact h'
  | next first _ ih =>
    rw [Report.append_assoc]
    exact .next first (ih h')

/-- A step that reports nothing, before a trail. -/
theorem after (h : step e .empty e₁) (h' : Trail step e₁ r e₂) : Trail step e r e₂ := by
  rw [← Report.empty_append r]
  exact .next h h'

theorem mono (weaker : ∀ e r e', step e r e' → step' e r e') (h : Trail step e r e₁) :
    Trail step' e r e₁ := by
  induction h with
  | rest e => exact .rest e
  | next first _ ih => exact .next (weaker _ _ _ first) ih

end Trail

/-! ## Acts of a rule -/

/-- One thing that a rule does to an engine on an event, with what is reported
    of it. -/
inductive Act (host : Host η ω) (event : Event) (rule : Rule) :
    Engine η ω → Report → Engine η ω → Prop
  | noted (e : Engine η ω) (entry : LogEntry) :
      Act host event rule e .empty { e with log := e.log ++ [entry] }
  | raised (e : Engine η ω) (i : Issue) :
      i.kind ≠ .cascadeDepthExceeded → Act host event rule e (.issue i) (e.told i)
  | stored (e : Engine η ω) {outputs : List Document} {store : Layered} :
      (transaction (applyAll event.lookup e.config.layer rule.modifications)).on e.store
        = (.ok (.ok outputs), store) →
      Act host event rule e .empty { e with store }
  | fired (e : Engine η ω) : Act host event rule e (.rule rule) e
  | called (e : Engine η ω) {handler : η} (call : ActionCall) :
      e.dispatcher.handler? call.action = some handler → call.rule = rule.id →
      Act host event rule e (.call call) ((host handler call).on e).2
  | put (e : Engine η ω) {id : Document} {out : Event} :
      Event.make id [] event.root (some rule.id) = .ok out →
      Act host event rule e (.output out) { e with queue := e.queue.push out }

/-- A fault of evaluation is never told as an overflow. -/
theorem kind_blame (f : Fault) (rule : Rule) (event : Event) :
    (blame f rule event).kind ≠ .cascadeDepthExceeded := by
  cases f <;> exact nofun

variable {host : Host η ω} {event : Event} {rule : Rule} {e e' : Engine η ω} {r : Report}

theorem dispatch_trail {facts : Facts} {action : String}
    (h : (dispatch host rule event facts action).on e = (.ok r, e')) :
    Trail (Act host event rule) e r e' := by
  rw [dispatch, bind_of_ok (on_get e)] at h
  cases hh : e.dispatcher.handler? action with
  | none =>
    simp only [hh, note, on_bind, on_modify, on_pure] at h
    cases h
    exact .single (.noted e _)
  | some handler =>
    have called : Act host event rule e (.call ⟨action, rule.id, facts⟩)
        ((host handler ⟨action, rule.id, facts⟩).on e).2 := .called e _ hh rfl
    simp only [hh] at h
    rw [bind_of_ok (on_caught _ _)] at h
    cases hc : ((host handler ⟨action, rule.id, facts⟩).on e).1 with
    | ok _ =>
      simp only [hc, on_pure] at h
      cases h
      exact .single called
    | error f =>
      simp only [hc] at h
      obtain ⟨text, -, h⟩ := of_given_bind h
      simp only [on_bind, on_raise, on_pure] at h
      cases h
      exact .next called (.single (.raised _ _ nofun))

theorem dispatchAll_trail {facts : Facts} {actions : List String}
    (h : (dispatchAll host rule event facts actions).on e = (.ok r, e')) :
    Trail (Act host event rule) e r e' := by
  induction actions generalizing e r with
  | nil =>
    obtain ⟨rfl, rfl⟩ := of_pure_ok h
    exact .rest e
  | cons action rest ih =>
    obtain ⟨r₁, e₁, first, h⟩ := of_bind_ok h
    obtain ⟨r₂, e₂, others, h⟩ := of_bind_ok h
    obtain ⟨rfl, rfl⟩ := of_pure_ok h
    exact (dispatch_trail first).append (ih others)

theorem putOut_trail {ids : List Document}
    (h : (putOut rule event ids).on e = (.ok r, e')) : Trail (Act host event rule) e r e' := by
  induction ids generalizing e r with
  | nil =>
    obtain ⟨rfl, rfl⟩ := of_pure_ok h
    exact .rest e
  | cons id rest ih =>
    obtain ⟨out, e₁, first, h⟩ := of_bind_ok h
    obtain ⟨⟨⟩, e₂, pushed, h⟩ := of_bind_ok h
    obtain ⟨r₁, e₃, others, h⟩ := of_bind_ok h
    obtain ⟨rfl, rfl⟩ := of_pure_ok h
    obtain ⟨made, rfl⟩ := of_ofExcept_ok first
    cases pushed
    exact .next (.put e made) (ih others)

theorem fire_trail {outputs : List Document}
    (h : (fire host rule event outputs).on e = (.ok r, e')) :
    Trail (Act host event rule) e r e' := by
  obtain ⟨⟨⟩, e₁, noted, h⟩ := of_bind_ok h
  obtain ⟨e₂, e₃, got, h⟩ := of_bind_ok h
  obtain ⟨called, e₄, calls, h⟩ := of_bind_ok h
  obtain ⟨put, e₅, puts, h⟩ := of_bind_ok h
  obtain ⟨rfl, rfl⟩ := of_pure_ok h
  cases noted
  cases got
  have fired (e₁ : Engine η ω) : Trail (Act host event rule) e₁ (.rule rule) e₁ :=
    .single (.fired e₁)
  exact .after (.noted e _)
    (((fired _).append (dispatchAll_trail calls)).append (putOut_trail puts))

/-- What a rule did is a trail of its acts. -/
theorem applyRule_trail {outcome : Outcome}
    (h : (applyRule host event rule).on e = (.ok outcome, e')) :
    Trail (Act host event rule) e outcome.report e' := by
  rw [applyRule_on] at h
  cases holds : rule.condition.check (event.lookup e.store) with
  | error f =>
    simp only [holds] at h
    split at h
    · cases h
      exact .single (.raised e _ (kind_blame f rule event))
    · cases h
  | ok truth =>
    cases truth with
    | false =>
      simp only [holds] at h
      cases h
      exact .rest e
    | true =>
      have writing := writing_applyAll event.blind_lookup e.config.layer rule.modifications
      rcases ht : (transaction (applyAll event.lookup e.config.layer rule.modifications)).on
          e.store with ⟨f | f | outputs, store⟩
      · simp only [holds, ht] at h
        cases h
      · simp only [holds, ht] at h
        cases h
        obtain rfl := transaction_undone writing ht
        exact .single (.raised e _ (kind_blame f rule event))
      · simp only [holds, ht] at h
        obtain ⟨r, e₁, fired, h⟩ := of_bind_ok h
        obtain ⟨rfl, rfl⟩ := of_pure_ok h
        exact .after (.stored e ht) (fire_trail fired)

/-- What the rules of an event did is a trail of acts of one or another. -/
theorem applyRules_trail {rules : List Rule}
    (h : (applyRules host event rules).on e = (.ok r, e')) :
    Trail (fun e r e' => ∃ rule ∈ rules, Act host event rule e r e') e r e' := by
  induction rules generalizing e r with
  | nil =>
    obtain ⟨rfl, rfl⟩ := of_pure_ok h
    exact .rest e
  | cons rule rest ih =>
    obtain ⟨outcome, e₁, applied, h⟩ := of_bind_ok h
    have first := (applyRule_trail applied).mono fun _ _ _ act =>
      (⟨rule, List.mem_cons_self .., act⟩ : ∃ rule' ∈ rule :: rest, Act host event rule' _ _ _)
    cases hc : outcome.consumed with
    | true =>
      simp only [hc] at h
      obtain ⟨rfl, rfl⟩ := of_pure_ok h
      exact first
    | false =>
      simp only [hc] at h
      obtain ⟨r', e₂, others, h⟩ := of_bind_ok h
      obtain ⟨rfl, rfl⟩ := of_pure_ok h
      refine first.append ((ih others).mono ?_)
      rintro _ _ _ ⟨rule', member, act⟩
      exact ⟨rule', List.mem_cons_of_mem _ member, act⟩

/-- Processing an event is a trail of acts of the rules that match it. -/
theorem process_trail (h : (process host event).on e = (.ok r, e')) :
    ∃ rules r', e.registry.rulesForEvent event.id = .ok rules ∧ r = .event event ++ r' ∧
      Trail (fun e r e' => ∃ rule ∈ rules, Act host event rule e r e') e r' e' := by
  obtain ⟨rules, e₁, first, h⟩ := of_bind_ok h
  obtain ⟨r', e₂, applied, h⟩ := of_bind_ok h
  obtain ⟨rfl, rfl⟩ := of_pure_ok h
  obtain ⟨matching, rfl⟩ := Prod.mk.inj first
  exact ⟨rules, r', matching, rfl, applyRules_trail applied⟩

end Engine

end Cascade
