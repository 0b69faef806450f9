-- SUMMARY: The dispatches of a rule: each action that some handler takes, with the engine as it was then, what the handler answered, and what is reported of it.
import Cascade.Proofs.Engine.Beats
import Cascade.Proofs.Engine.Turns

/-! # Dispatches

The actions of a rule that fires are dispatched one after the other. An action
without a handler is passed over. What a handler answers, be it a fault, ends
nothing as long as a fault can be worded: the next action is dispatched to the
engine as it is then, and when all are done the report is those of the dispatches
added up. A fault that cannot be worded is a **lapse**. It is the one thing that
calling handlers fails with, and what it comes of is the last dispatch. -/

namespace Cascade

open Attempt

variable {η ω : Type}

/-- Some handler can raise a fault that cannot be worded, and this is what comes of
    wording it. -/
def Host.Lapses (host : Host η ω) (f : Fault) : Prop :=
  ∃ handler call e g, ((host handler call).on e).1 = .error g ∧ g.wording = .error f

/-- Handlers that always return have no lapses. -/
theorem Host.not_lapses {host : Host η ω}
    (returns : ∀ handler call e, ((host handler call).on e).1 = .ok ()) (f : Fault) :
    ¬host.Lapses f := by
  rintro ⟨handler, call, e, g, raised, -⟩
  rw [returns] at raised
  cases raised

namespace Engine

/-- An action that a handler takes, with the engine before. -/
structure Dispatch (η ω : Type) where
  rule : Rule
  event : Event
  facts : Facts
  action : String
  handler : η
  before : Engine η ω

namespace Dispatch

variable (host : Host η ω) (d : Dispatch η ω)

def call : ActionCall := ⟨d.action, d.rule.id, d.facts⟩

/-- Whether the handler returned, or else the fault that it raised. -/
def answer : Except Fault Unit := ((host d.handler d.call).on d.before).1

/-- The issue that is made of a fault which the handler raised. -/
def failure? : Option Issue :=
  match d.answer host with
  | .ok _ => none
  | .error f =>
    f.wording.toOption.map fun text => .ofText .actionFailed
      s!"Action {Text.quoted d.action} failed: {text}" (some d.rule.id) (some d.event.id)

/-- The fault that comes of wording the one which the handler raised. -/
def lapse? : Option Fault :=
  match d.answer host with
  | .ok _ => none
  | .error f =>
    match f.wording with
    | .ok _ => none
    | .error cause => some cause

/-- What is reported of the dispatch: the call, and the issue if there is one. -/
def report : Report := .call d.call ++ ((d.failure? host).map Report.issue).getD .empty

variable {host d}

/-- Without a lapse there is an issue exactly if the handler raised a fault. -/
theorem isSome_failure? (calm : d.lapse? host = none) :
    (d.failure? host).isSome ↔ ∃ f, d.answer host = .error f := by
  unfold failure?
  unfold lapse? at calm
  cases answered : d.answer host with
  | ok _ => simp
  | error f =>
    rw [answered] at calm
    cases worded : f.wording with
    | ok text => simp [Except.toOption, worded]
    | error cause => simp [worded] at calm

theorem kind_of_failure? {i : Issue} (h : d.failure? host = some i) : i.kind = .actionFailed := by
  unfold failure? at h
  cases answered : d.answer host with
  | ok _ =>
    rw [answered] at h
    cases h
  | error f =>
    rw [answered] at h
    obtain ⟨text, -, rfl⟩ := Option.map_eq_some_iff.mp h
    rfl

theorem lapses {f : Fault} (h : d.lapse? host = some f) : host.Lapses f := by
  unfold lapse? at h
  cases answered : d.answer host with
  | ok _ =>
    rw [answered] at h
    cases h
  | error g =>
    rw [answered] at h
    cases worded : g.wording with
    | ok text => simp [worded] at h
    | error cause =>
      simp only [worded, Option.some.injEq] at h
      exact ⟨d.handler, d.call, d.before, g, answered, h ▸ worded⟩

end Dispatch

/-- The dispatch of an action, if some handler takes it. -/
def asked (rule : Rule) (event : Event) (facts : Facts) (action : String) (e : Engine η ω) :
    List (Dispatch η ω) :=
  ((e.dispatcher.handler? action).map fun handler =>
    ⟨rule, event, facts, action, handler, e⟩).toList

def dispatches (host : Host η ω) (rule : Rule) (event : Event) (facts : Facts) :
    List String → Engine η ω → List (Dispatch η ω)
  | [], _ => []
  | action :: rest, e =>
    asked rule event facts action e
      ++ (dispatch host rule event facts action).onward e fun _ e' =>
        dispatches host rule event facts rest e'

/-- The first lapse among some dispatches. -/
def lapseOf (host : Host η ω) (ds : List (Dispatch η ω)) : Option Fault :=
  ds.findSome? (·.lapse? host)

/-- What comes of some dispatches: the lapse that ends them, or else their reports
    added up. -/
def outcomeOf (host : Host η ω) (ds : List (Dispatch η ω)) : Except Fault Report :=
  match lapseOf host ds with
  | some f => .error f
  | none => .ok (.total (ds.map (·.report host)))

variable {host : Host η ω} {rule : Rule} {event : Event} {facts : Facts}

theorem lapseOf_eq_none {ds : List (Dispatch η ω)} :
    lapseOf host ds = none ↔ ∀ d ∈ ds, d.lapse? host = none :=
  List.findSome?_eq_none_iff

/-- Dispatches that come to an end have had no lapse. -/
theorem outcomeOf_eq_ok {ds : List (Dispatch η ω)} {r : Report} :
    outcomeOf host ds = .ok r ↔
      lapseOf host ds = none ∧ r = .total (ds.map (·.report host)) := by
  unfold outcomeOf
  cases lapseOf host ds with
  | none => simp [eq_comm]
  | some f => simp

theorem outcomeOf_eq_error {ds : List (Dispatch η ω)} {f : Fault} :
    outcomeOf host ds = .error f ↔ lapseOf host ds = some f := by
  unfold outcomeOf
  cases lapseOf host ds with
  | none => simp
  | some g => simp

/-- Dispatches one after the other. -/
theorem outcomeOf_append {ds ds' : List (Dispatch η ω)} {r : Report}
    (first : outcomeOf host ds = .ok r) :
    outcomeOf host (ds ++ ds') = (outcomeOf host ds').map (r ++ ·) := by
  obtain ⟨calm, rfl⟩ := outcomeOf_eq_ok.mp first
  have both : lapseOf host (ds ++ ds') = lapseOf host ds' := by
    rw [lapseOf, List.findSome?_append]
    exact (congrArg (Option.or · _) calm).trans Option.none_or
  unfold outcomeOf
  rw [both]
  cases lapseOf host ds' with
  | some f => rfl
  | none =>
    rw [List.map_append, Report.total_append]
    rfl

/-- What comes of one dispatch is made of the answer of its handler. -/
theorem outcomeOf_singleton (d : Dispatch η ω) :
    outcomeOf host [d] = match d.answer host with
      | .ok _ => .ok (.call d.call)
      | .error f => do
        let text ← f.wording
        return .call d.call ++ .issue (.ofText .actionFailed
          s!"Action {Text.quoted d.action} failed: {text}" (some d.rule.id) (some d.event.id)) := by
  have once : Report.total [d.report host] = d.report host := Report.append_empty _
  rw [outcomeOf, lapseOf, List.map_singleton, once, List.findSome?_singleton, Dispatch.lapse?,
    Dispatch.report, Dispatch.failure?]
  cases d.answer host with
  | ok _ => exact congrArg Except.ok (Report.append_empty _)
  | error f =>
    dsimp only
    cases f.wording with
    | ok text => rfl
    | error cause => rfl

theorem dispatch_outcome (action : String) (e : Engine η ω) :
    ((dispatch host rule event facts action).on e).1
      = outcomeOf host (asked rule event facts action e) := by
  rw [dispatch, bind_of_ok (on_get e), asked]
  cases e.dispatcher.handler? action with
  | none => rfl
  | some handler =>
    let d : Dispatch η ω := ⟨rule, event, facts, action, handler, e⟩
    change _ = outcomeOf host [d]
    rw [outcomeOf_singleton]
    dsimp only
    rw [bind_of_ok (on_caught _ _)]
    cases answered : d.answer host with
    | ok _ =>
      have returned : ((host handler ⟨action, rule.id, facts⟩).on e).1 = .ok () := answered
      rw [returned]
      rfl
    | error f =>
      have raised : ((host handler ⟨action, rule.id, facts⟩).on e).1 = .error f := answered
      simp only [raised, on_bind, on_ofExcept]
      cases f.wording with
      | ok text => rfl
      | error cause => rfl

/-- Calling handlers fails with a lapse, or reports all dispatches. -/
theorem dispatchAll_outcome (actions : List String) (e : Engine η ω) :
    ((dispatchAll host rule event facts actions).on e).1
      = outcomeOf host (dispatches host rule event facts actions e) := by
  induction actions generalizing e with
  | nil => rfl
  | cons action rest ih =>
    have first : ((dispatch host rule event facts action).on e).1 = _ := dispatch_outcome action e
    rw [dispatchAll, dispatches]
    rcases hd : (dispatch host rule event facts action).on e with ⟨f | r, e'⟩ <;> rw [hd] at first
    · rw [bind_of_error hd, onward_of_error hd, List.append_nil]
      exact first
    · rw [bind_of_ok hd, outcome_then_pure, ih, onward_of_ok hd, outcomeOf_append first.symm]

/-- The dispatches of some actions are those of one rule on one event. -/
theorem of_mem_dispatches {actions : List String} {e : Engine η ω} :
    ∀ d ∈ dispatches host rule event facts actions e, d.rule = rule ∧ d.event = event := by
  induction actions generalizing e with
  | nil => exact List.forall_mem_nil _
  | cons action rest ih =>
    refine List.forall_mem_append.mpr ⟨?_, forall_onward fun _ e' _ => ih⟩
    rw [asked]
    cases e.dispatcher.handler? action with
    | none => exact List.forall_mem_nil _
    | some handler => exact List.forall_mem_singleton.mpr ⟨rfl, rfl⟩

/-! ## Handlers that leave the engine alone -/

/-- A host that leaves engines alone never changes which handler takes an action. -/
theorem dispatcher_of_beats {e e' : Engine η ω} {rules : Rule → Prop} (outward : host.IsOutward)
    (h : Relation.ReflTransGen (Beat host rules) e e') : e'.dispatcher = e.dispatcher := by
  induction h with
  | refl => rfl
  | tail _ beat ih =>
    rw [← ih]
    cases beat with
    | told => rfl
    | ruled => rfl
    | called handler call =>
      obtain ⟨state, left⟩ := outward handler call _
      rw [left]

theorem action_asked (action : String) (e : Engine η ω) :
    (asked rule event facts action e).map (·.action)
      = [action].filter fun action => (e.dispatcher.handler? action).isSome := by
  rw [asked, List.filter_singleton]
  cases e.dispatcher.handler? action with
  | none => rfl
  | some handler => rfl

/-- With such a host exactly the actions that some handler takes are dispatched,
    each in its turn, whatever was answered before, unless a lapse ends them. -/
theorem actions_dispatches (outward : host.IsOutward) (facts : Facts) (actions : List String)
    (e : Engine η ω) :
    let taken := actions.filter fun action => (e.dispatcher.handler? action).isSome
    (dispatches host rule event facts actions e).map (·.action) <+: taken ∧
      (lapseOf host (dispatches host rule event facts actions e) = none →
        (dispatches host rule event facts actions e).map (·.action) = taken) := by
  induction actions generalizing e with
  | nil => exact ⟨List.nil_prefix, fun _ => rfl⟩
  | cons action rest ih =>
    have beats : Relation.ReflTransGen (Beat host fun _ => True) e
        ((dispatch host rule event facts action).on e).2 :=
      beats_dispatch host event rule facts action e
    have same := dispatcher_of_beats outward beats
    have outcome : ((dispatch host rule event facts action).on e).1 = _ := dispatch_outcome action e
    have taken : (action :: rest).filter (fun action => (e.dispatcher.handler? action).isSome)
        = (asked rule event facts action e).map (·.action)
          ++ rest.filter fun action => (e.dispatcher.handler? action).isSome := by
      rw [action_asked]
      exact List.filter_append [action] rest
    dsimp only
    rw [dispatches, taken, List.map_append]
    rcases hd : (dispatch host rule event facts action).on e with ⟨f | r, e'⟩ <;>
      rw [hd] at same outcome
    · -- what was asked has lapsed, and nothing comes after it
      rw [onward_of_error hd, List.append_nil, List.map_nil, List.append_nil]
      refine ⟨List.prefix_append _ _, fun calm => ?_⟩
      rw [outcomeOf_eq_error.mp outcome.symm] at calm
      cases calm
    · obtain ⟨calm, -⟩ := outcomeOf_eq_ok.mp outcome.symm
      obtain ⟨before, all⟩ := ih e'
      rw [same] at before all
      rw [onward_of_ok hd]
      refine ⟨(List.prefix_append_right_inj _).mpr before, fun later => ?_⟩
      rw [all (lapseOf_eq_none.mpr fun d mem => ?_)]
      exact lapseOf_eq_none.mp later d (List.mem_append_right _ mem)

/-- Whatever comes of calling handlers that leave the engine alone, it has changed
    nothing but what was told and what the host keeps. -/
theorem left_dispatch (outward : host.IsOutward) (action : String) (e : Engine η ω) :
    ∃ sink log state, ((dispatch host rule event facts action).on e).2
      = { e with sink, log, host := state } := by
  rw [dispatch, bind_of_ok (on_get e)]
  cases e.dispatcher.handler? action with
  | none => exact ⟨e.sink, _, e.host, rfl⟩
  | some handler =>
    obtain ⟨state, left⟩ := outward handler ⟨action, rule.id, facts⟩ e
    dsimp only
    rw [bind_of_ok (on_caught _ _), left]
    cases ((host handler ⟨action, rule.id, facts⟩).on e).1 with
    | ok _ => exact ⟨e.sink, e.log, state, rfl⟩
    | error f =>
      dsimp only
      rw [on_bind, on_ofExcept]
      cases f.wording with
      | ok text => exact ⟨_, _, state, rfl⟩
      | error cause => exact ⟨e.sink, e.log, state, rfl⟩

theorem left_dispatchAll (outward : host.IsOutward) (actions : List String) (e : Engine η ω) :
    ∃ sink log state, ((dispatchAll host rule event facts actions).on e).2
      = { e with sink, log, host := state } := by
  induction actions generalizing e with
  | nil => exact ⟨e.sink, e.log, e.host, rfl⟩
  | cons action rest ih =>
    have first : ∃ sink log state, ((dispatch host rule event facts action).on e).2 = _ :=
      left_dispatch outward action e
    obtain ⟨sink, log, state, left⟩ := first
    rw [dispatchAll]
    rcases hd : (dispatch host rule event facts action).on e with ⟨f | r, e'⟩ <;>
      rw [hd] at left <;> obtain rfl : e' = _ := left
    · rw [bind_of_error hd]
      exact ⟨sink, log, state, rfl⟩
    · rw [bind_of_ok hd, left_then_pure]
      exact ih { e with sink, log, host := state }

end Engine

end Cascade
