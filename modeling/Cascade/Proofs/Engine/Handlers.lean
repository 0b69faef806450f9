-- SUMMARY: What handlers have a bearing on: whichever are called and whatever they raise, a tick does the same but for the calls and their failures, unless one of them raises a fault that cannot be worded, which ends the tick.
import Cascade.Proofs.Engine.Trials
import Cascade.Proofs.Outcome

/-! # Handlers

Two engines are **twins** if they differ at most in the handlers, in what these
made of the host, and in what was told. As long as no handler has a lapse their
ticks run side by side: whatever handlers there are and whatever they answer, the
same rules fire, the same events come of it, and the ticks end in the same way with
engines that are twins again. What handlers do have a bearing on then are the calls
that a tick reports and the issues of calls that failed, one for each. A lapse on
the other hand, which is a fault that cannot be worded as an issue, ends the tick
in the midst of a rule. -/

namespace Cascade

open Attempt

/-! ## Reports without handlers -/

/-- A report without the calls of handlers and the issues of those that failed. -/
def Report.inward (r : Report) : Report :=
  { r with calls := [], issues := r.issues.filter (·.kind ≠ .actionFailed) }

namespace Report

theorem inward_append (r r' : Report) : (r ++ r').inward = r.inward ++ r'.inward := by
  change inward (append r r') = append r.inward r'.inward
  simp only [inward, append, List.filter_append, List.append_nil]

theorem inward_issue {i : Issue} (h : i.kind = .actionFailed) : (issue i).inward = .empty := by
  simp [inward, issue, empty, h]

/-- Two reports that differ at most in calls of handlers and their failures. -/
def Within (r r' : Report) : Prop := r.inward = r'.inward

theorem Within.append {a a' b b' : Report} (h : a.Within a') (h' : b.Within b') :
    (a ++ b).Within (a' ++ b') := by
  unfold Within
  rw [inward_append, inward_append, h, h']

end Report

namespace Engine

variable {η ω η' ω' : Type}

/-- Two outcomes of a rule with reports that differ at most in what handlers do. -/
def Outcome.Within (o o' : Outcome) : Prop :=
  o.report.Within o'.report ∧ o.consumed = o'.consumed

/-- What is reported of dispatches are calls and failures only. -/
theorem inward_dispatches (host : Host η ω) (ds : List (Dispatch η ω)) :
    (Report.total (ds.map (·.report host))).inward = .empty := by
  induction ds with
  | nil => rfl
  | cons d ds ih =>
    have single : (d.report host).inward = .empty := by
      rw [Dispatch.report, Report.inward_append]
      cases failed : d.failure? host with
      | none => rfl
      | some i =>
        rw [Option.map_some, Option.getD_some,
          Report.inward_issue (Dispatch.kind_of_failure? failed)]
        rfl
    rw [List.map_cons, Report.total_cons, Report.inward_append, single, ih]
    exact Report.append_empty _

/-! ## Twins -/

/-- Two engines, maybe with handlers of different types, that differ at most in the
    handlers, the state of the host, and what was told. -/
structure Twins (e : Engine η ω) (k : Engine η' ω') : Prop where
  config : e.config = k.config
  store : e.store = k.store
  registry : e.registry = k.registry
  queue : e.queue = k.queue
  entered : e.entered = k.entered
  seeds : e.seeds = k.seeds
  draining : e.draining = k.draining

/-- What is told and what hosts keep makes no difference to twins. -/
theorem Twins.aside {e : Engine η ω} {k : Engine η' ω'} (h : Twins e k) (sink sink' : Sink)
    (log log' : List LogEntry) (state : ω) (state' : ω') :
    Twins { e with sink, log, host := state } { k with sink := sink', log := log', host := state' } :=
  { h with config := h.config }

theorem Twins.told {e : Engine η ω} {k : Engine η' ω'} (h : Twins e k) (i : Issue) :
    Twins (e.told i) (k.told i) :=
  h.aside _ _ _ _ e.host k.host

/-- Twins stay so when their queues change in the same way. -/
theorem Twins.requeued {e : Engine η ω} {k : Engine η' ω'} (h : Twins e k) (queue : Queue) :
    Twins { e with queue } { k with queue } :=
  { h with queue := rfl }

variable {host : Host η ω} {host' : Host η' ω'} {event : Event} {rule : Rule}
  {e : Engine η ω} {k : Engine η' ω'}

/-- Twins are done with their passes at the same time. -/
theorem Twins.done_iff (twins : Twins e k) :
    k.queue.pending = [] ∨ k.config.maxDepth = 0
      ↔ e.queue.pending = [] ∨ e.config.maxDepth = 0 := by
  rw [twins.queue, twins.config]

theorem twins_putOut (twins : Twins e k) (ids : List Document) :
    Parallel Twins Eq (putOut rule event ids : Attempt (Engine η ω) Report)
      (putOut rule event ids : Attempt (Engine η' ω') Report) e k := by
  induction ids generalizing e k with
  | nil => exact .pure twins rfl
  | cons id rest ih =>
    refine (Parallel.ofExcept twins _).after fun out e₁ k₁ _ _ twins => ?_
    refine Parallel.after (.modify ?_) fun _ e₂ k₂ _ _ twins =>
      (ih twins).after fun _ _ _ _ _ twins => .pure twins rfl
    rw [← twins.queue]
    exact twins.requeued _

theorem twins_overflow (twins : Twins e k) :
    Parallel Twins Eq (overflow : Attempt (Engine η ω) Report)
      (overflow : Attempt (Engine η' ω') Report) e k := by
  have excess : k.excess = e.excess := by
    rw [Engine.excess, Engine.excess, twins.config, twins.queue]
  have policy : k.config.overflow = e.config.overflow := by rw [twins.config]
  rw [Parallel, on_overflow, on_overflow, policy, ← twins.queue, excess]
  cases e.config.overflow with
  | drop => exact ⟨.result rfl, (twins.requeued .empty).told e.excess⟩
  | defer => exact ⟨.result rfl, twins.told e.excess⟩

/-! ## Trials of twins -/

theorem Twins.transacted (twins : Twins e k) (event : Event) (rule : Rule) :
    (⟨event, rule, k⟩ : Trial η' ω').transacted = (⟨event, rule, e⟩ : Trial η ω).transacted := by
  unfold Trial.transacted
  dsimp only
  rw [twins.store, twins.config]

/-- Handlers have no part in whether a rule fires and in what it then puts out. -/
theorem Twins.outputs? (twins : Twins e k) (event : Event) (rule : Rule) :
    (⟨event, rule, k⟩ : Trial η' ω').outputs? = (⟨event, rule, e⟩ : Trial η ω).outputs? := by
  unfold Trial.outputs?
  rw [twins.transacted]
  dsimp only
  rw [twins.store]

theorem Twins.modified (twins : Twins e k) (event : Event) (rule : Rule) :
    Twins (⟨event, rule, e⟩ : Trial η ω).modified (⟨event, rule, k⟩ : Trial η' ω').modified :=
  { twins with store := (congrArg Prod.snd (twins.transacted event rule)).symm }

/-- When their actions have been called twins are twins still. -/
theorem Twins.called (outward : host.IsOutward) (outward' : host'.IsOutward) (twins : Twins e k)
    (event : Event) (rule : Rule) :
    Twins ((⟨event, rule, e⟩ : Trial η ω).called host)
      ((⟨event, rule, k⟩ : Trial η' ω').called host') := by
  let t : Trial η ω := ⟨event, rule, e⟩
  let t' : Trial η' ω' := ⟨event, rule, k⟩
  have left : ∃ sink log state, t.called host = _ := left_dispatchAll outward rule.actions t.firing
  have left' : ∃ sink log state, t'.called host' = _ :=
    left_dispatchAll outward' rule.actions t'.firing
  obtain ⟨sink, log, state, left⟩ := left
  obtain ⟨sink', log', state', left'⟩ := left'
  rw [left, left']
  exact (twins.modified event rule).aside sink sink' log log' state state'

/-- In none of some trials does a handler have a lapse. -/
abbrev Calm (host : Host η ω) (ts : List (Trial η ω)) : Prop := ∀ t ∈ ts, t.lapse? host = none

theorem Calm.onward {α : Type} {a : Attempt (Engine η ω) α} {e' : Engine η ω} {x : α}
    {next : α → Engine η ω → List (Trial η ω)} (h : Calm host (a.onward e next))
    (returned : a.on e = (.ok x, e')) : Calm host (next x e') := by
  rw [onward_of_ok returned] at h
  exact h

section Hosts

variable (outward : host.IsOutward) (outward' : host'.IsOutward)
include outward outward'

/-- Where no handler has a lapse, a rule that fires on twins puts the same out. -/
theorem twins_fire {outputs : List Document} (twins : Twins e k)
    (fires : (⟨event, rule, e⟩ : Trial η ω).outputs? = some outputs)
    (calm : (⟨event, rule, e⟩ : Trial η ω).lapse? host = none)
    (calm' : (⟨event, rule, k⟩ : Trial η' ω').lapse? host' = none) :
    Parallel Twins Report.Within (fire host rule event outputs) (fire host' rule event outputs)
      (⟨event, rule, e⟩ : Trial η ω).modified (⟨event, rule, k⟩ : Trial η' ω').modified := by
  let t : Trial η ω := ⟨event, rule, e⟩
  let t' : Trial η' ω' := ⟨event, rule, k⟩
  have fired := t.fire_on host fires
  have fired' := t'.fire_on host' ((twins.outputs? event rule).trans fires)
  rw [calm] at fired
  rw [calm'] at fired'
  rw [Parallel, fired, fired']
  refine (twins_putOut (twins.called outward outward' event rule) _).after
    fun put _ _ _ _ left => .pure left ?_
  refine Report.Within.append (Report.Within.append rfl ?_) rfl
  rw [Report.Within, inward_dispatches, inward_dispatches]

/-! ## Rules and events -/

theorem twins_applyRule (event : Event) (rule : Rule) (twins : Twins e k)
    (calm : (⟨event, rule, e⟩ : Trial η ω).lapse? host = none)
    (calm' : (⟨event, rule, k⟩ : Trial η' ω').lapse? host' = none) :
    Parallel Twins Outcome.Within (applyRule host event rule) (applyRule host' event rule) e k := by
  have layer : k.config.layer = e.config.layer := by rw [twins.config]
  rw [Parallel, applyRule_on, applyRule_on, layer, ← twins.store]
  cases holds : rule.condition.check (event.lookup e.store) with
  | error f =>
    dsimp only
    split
    · exact ⟨.result ⟨rfl, rfl⟩, twins.told _⟩
    · exact ⟨.fault f, twins⟩
  | ok truth =>
    cases truth with
    | false => exact ⟨.result ⟨rfl, rfl⟩, twins⟩
    | true =>
      rcases ht : (transaction (applyAll event.lookup e.config.layer rule.modifications)).on
          e.store with ⟨f | f | outputs, store⟩ <;> dsimp only
      · exact ⟨.fault f, { twins with store := rfl }⟩
      · have left : Twins { e with store } { k with store } := { twins with store := rfl }
        exact ⟨.result ⟨rfl, rfl⟩, left.told _⟩
      · have fires : (⟨event, rule, e⟩ : Trial η ω).outputs? = some outputs := by
          simp only [Trial.outputs?, Trial.transacted, holds, ht]
        have same : { e with store } = (⟨event, rule, e⟩ : Trial η ω).modified := by
          rw [Trial.modified, Trial.transacted, ht]
        have same' : { k with store } = (⟨event, rule, k⟩ : Trial η' ω').modified := by
          rw [Trial.modified, twins.transacted, Trial.transacted, ht]
        rw [same, same']
        exact (twins_fire outward outward' twins fires calm calm').bind
          fun _ _ _ _ _ _ alike left => .pure left ⟨alike, rfl⟩

theorem twins_applyRules (event : Event) (rules : List Rule) (twins : Twins e k)
    (calm : Calm host (trialsOn host event rules e))
    (calm' : Calm host' (trialsOn host' event rules k)) :
    Parallel Twins Report.Within (applyRules host event rules)
      (applyRules host' event rules) e k := by
  induction rules generalizing e k with
  | nil => exact .pure twins rfl
  | cons rule rest ih =>
    obtain ⟨first, later⟩ := List.forall_mem_cons.mp calm
    obtain ⟨first', later'⟩ := List.forall_mem_cons.mp calm'
    refine (twins_applyRule outward outward' event rule twins first first').bind
      fun o o' e₁ k₁ applied applied' alike twins => ?_
    obtain ⟨reports, consumed⟩ := alike
    have later := Calm.onward later applied
    have later' := Calm.onward later' applied'
    rw [← consumed] at later' ⊢
    cases hc : o.consumed with
    | true => exact .pure twins reports
    | false =>
      rw [hc] at later later'
      exact (ih twins later later').bind fun _ _ _ _ _ _ others twins =>
        .pure twins (reports.append others)

theorem twins_process (event : Event) (twins : Twins e k)
    (calm : Calm host (trialsAt host event e)) (calm' : Calm host' (trialsAt host' event k)) :
    Parallel Twins Report.Within (process host event) (process host' event) e k := by
  have matching : e.registry.rulesForEvent event.id = k.registry.rulesForEvent event.id := by
    rw [twins.registry]
  refine (Parallel.reading twins matching).after fun rules e₁ k₁ found found' twins => ?_
  have applied := twins_applyRules outward outward' event rules twins (Calm.onward calm found)
    (Calm.onward calm' found')
  exact applied.bind fun _ _ _ _ _ _ alike twins => .pure twins (Report.Within.append rfl alike)

theorem twins_processAll (batch : List Event) (twins : Twins e k)
    (calm : Calm host (trialsOf host batch e)) (calm' : Calm host' (trialsOf host' batch k)) :
    Parallel Twins Report.Within (processAll host batch) (processAll host' batch) e k := by
  induction batch generalizing e k with
  | nil => exact .pure twins rfl
  | cons event rest ih =>
    rw [trialsOf] at calm calm'
    obtain ⟨now, later⟩ := List.forall_mem_append.mp calm
    obtain ⟨now', later'⟩ := List.forall_mem_append.mp calm'
    refine (twins_process outward outward' event twins now now').bind
      fun _ _ e₁ k₁ processed processed' first twins => ?_
    have later := Calm.onward later processed
    have later' := Calm.onward later' processed'
    exact (ih twins later later').bind fun _ _ _ _ _ _ others twins =>
      .pure twins (first.append others)

/-! ## Passes and ticks -/

theorem twins_passes (allowed : Nat) (twins : Twins e k)
    (calm : Calm host (trialsIn host allowed e)) (calm' : Calm host' (trialsIn host' allowed k)) :
    Parallel Twins Report.Within (passes host allowed e.queue.pending)
      (passes host' allowed k.queue.pending) { e with queue := .empty }
      { k with queue := .empty } := by
  -- on the passes that are allowed after the first one
  induction allowed using Nat.strong_induction_on generalizing e k with
  | _ allowed ih =>
    rw [trialsIn.eq_def] at calm calm'
    obtain ⟨now, later⟩ := List.forall_mem_append.mp calm
    obtain ⟨now', later'⟩ := List.forall_mem_append.mp calm'
    have batch : e.queue.pending = k.queue.pending := by rw [twins.queue]
    rw [← batch] at now'
    have processed := twins_processAll outward outward' e.queue.pending (twins.requeued .empty)
      now now'
    obtain ⟨outcomes, left⟩ := processed
    rcases h : (processAll host e.queue.pending).on { e with queue := .empty } with ⟨x, e₁⟩
    rcases h' : (processAll host' e.queue.pending).on { k with queue := .empty } with ⟨x', k₁⟩
    rw [h, h'] at outcomes left
    rw [batch] at h'
    cases outcomes with
    | fault f =>
      rw [Parallel, passes.eq_def, passes.eq_def host', bind_of_error h, bind_of_error h']
      exact ⟨.fault f, left⟩
    | result within =>
      have first := pass_of_processAll h
      have first' := pass_of_processAll h'
      have later := Calm.onward later first
      have later' := Calm.onward later' first'
      have reports := Report.Within.append (a := .pass) rfl within
      rw [Parallel, passes_after first, passes_after first']
      by_cases done : e₁.queue.pending = [] ∨ e₁.config.maxDepth = 0
      · rw [if_pos done, if_pos (left.done_iff.mpr done)]
        exact ⟨.result reports, left⟩
      · have going := mt left.done_iff.mp done
        rw [if_neg done] at later ⊢
        rw [if_neg going] at later' ⊢
        cases allowed with
        | zero =>
          exact (twins_overflow left).after fun _ _ _ _ _ left =>
            .pure left (reports.append rfl)
        | succ n =>
          exact (ih n n.lt_succ_self left later later').bind fun _ _ _ _ _ _ others left =>
            .pure left (reports.append others)

theorem twins_drainAll (twins : Twins e k)
    (calm : Calm host (trialsIn host e.config.maxDepth e))
    (calm' : Calm host' (trialsIn host' k.config.maxDepth k)) :
    Parallel Twins Report.Within (drainAll host) (drainAll host') e k := by
  have depth : k.config.maxDepth = e.config.maxDepth := by rw [twins.config]
  rw [depth] at calm'
  rw [Parallel, drainAll_on, drainAll_on, depth]
  by_cases idle : e.queue.pending = []
  · rw [if_pos idle, if_pos (twins.queue ▸ idle)]
    exact ⟨.result rfl, twins⟩
  · rw [if_neg idle, if_neg (twins.queue ▸ idle)]
    exact twins_passes outward outward' e.config.maxDepth twins calm calm'

/-- Where no handler has a lapse, ticks of twins run side by side. -/
theorem twins_tick (twins : Twins e k) (calm : Calm host (trials host e))
    (calm' : Calm host' (trials host' k)) :
    Parallel Twins Report.Within (tick host) (tick host') e k := by
  unfold trials at calm calm'
  rw [Parallel, tick_on, tick_on, ← twins.draining]
  rw [← twins.draining] at calm'
  split
  · exact ⟨.fault _, twins⟩
  · rename_i idle
    rw [if_neg idle] at calm calm'
    have busy : Twins { e with draining := true } { k with draining := true } :=
      { twins with draining := rfl }
    obtain ⟨outcomes, left⟩ := twins_drainAll outward outward' busy calm calm'
    exact ⟨outcomes, { left with draining := rfl }⟩

end Hosts

/-! ## Calls and failures -/

variable {e e' : Engine η ω} {r : Report}

/-- The calls that a tick reports are those of its dispatches. -/
theorem calls_tick (h : (tick host).on e = (.ok r, e')) :
    r.calls = ((trials host e).flatMap (·.dispatches host)).map (·.call) := by
  have ruled : IsRuled Report.calls :=
    ⟨rfl, fun _ _ => rfl, rfl, fun _ => rfl, fun _ => rfl, fun _ => rfl, fun _ _ => rfl⟩
  have called (d : Dispatch η ω) : (d.report host).calls = [d.call] := by
    unfold Dispatch.report
    cases d.failure? host <;> rfl
  rw [List.map_flatMap]
  refine part_tick ruled (fun t outcome e' result => ?_) h
  have put : (t.puts host).flatMap (fun out => (Report.output out).calls) = [] :=
    List.flatMap_eq_nil_iff.mpr fun _ _ => rfl
  rw [Trial.part_of_result ruled (fun _ => rfl) (fun _ _ _ => rfl) result, put, List.append_nil,
    List.map_eq_flatMap]
  simp only [called]

/-- A rule that cannot be evaluated is not taken for a handler that failed. -/
theorem kind_blame_ne (f : Fault) (rule : Rule) (event : Event) :
    (blame f rule event).kind ≠ .actionFailed := by
  cases f <;> exact nofun

/-- The failures of handlers that a tick reports are those of its dispatches. -/
theorem failures_tick (h : (tick host).on e = (.ok r, e')) :
    r.issues.filter (·.kind = .actionFailed)
      = ((trials host e).flatMap (·.dispatches host)).filterMap (·.failure? host) := by
  let part (r : Report) : List Issue := r.issues.filter (·.kind = .actionFailed)
  have other {i : Issue} (differs : i.kind ≠ .actionFailed) : part (.issue i) = [] :=
    List.filter_eq_nil_iff.mpr (by simpa [Report.issue] using differs)
  have ruled : IsRuled part :=
    ⟨rfl, fun _ _ => List.filter_append .., rfl, fun _ => rfl, fun _ => rfl, fun _ => rfl,
      fun i overflow => other (by simp [overflow])⟩
  have failed (d : Dispatch η ω) : part (d.report host) = (d.failure? host).toList := by
    unfold Dispatch.report
    cases failure : d.failure? host with
    | none => rfl
    | some i =>
      have kept : (Report.issue i).issues.filter (·.kind = .actionFailed) = [i] := by
        simp [Report.issue, Dispatch.kind_of_failure? failure]
      exact kept
  rw [List.filterMap_flatMap]
  refine part_tick ruled (fun t outcome e' result => ?_) h
  have put : (t.puts host).flatMap (fun out => part (.output out)) = [] :=
    List.flatMap_eq_nil_iff.mpr fun _ _ => rfl
  rw [Trial.part_of_result ruled (fun _ => rfl) (fun f _ _ => other (kind_blame_ne f _ _)) result,
    put, List.append_nil, List.filterMap_eq_flatMap_toList]
  simp only [failed]

/-- In a tick with handlers that leave the engine alone, the actions of a rule that
    fires are dispatched in order, but for those that no handler takes, until one of
    the handlers has a lapse. -/
theorem actions_trials (outward : host.IsOutward) :
    ∀ t ∈ trials host e, t.Fires →
      let taken := t.rule.actions.filter fun action => (e.dispatcher.handler? action).isSome
      (t.dispatches host).map (·.action) <+: taken ∧
        (t.lapse? host = none → (t.dispatches host).map (·.action) = taken) := by
  have told : ∀ (k : Engine η ω) sink queue log, k.dispatcher = e.dispatcher →
      ({ k with sink, queue, log } : Engine η ω).dispatcher = e.dispatcher :=
    fun _ _ _ _ same => same
  have processes (event : Event) :
      Maintains (·.dispatcher = e.dispatcher) (process host event) := by
    refine .of_holds fun k same => ?_
    rw [dispatcher_of_beats outward (beats_process host event k), same]
  refine forall_trials told processes (fun event k same t mem fires => ?_) rfl
  obtain ⟨-, -, beats⟩ := mem_trialsAt t mem
  obtain ⟨outputs, some⟩ := Option.isSome_iff_exists.mp fires
  have before : t.before.dispatcher = e.dispatcher :=
    (dispatcher_of_beats outward beats).trans same
  rw [← before, Trial.lapse?, Trial.dispatches, some]
  exact actions_dispatches outward _ _ t.firing

/-- A tick that comes to an end has had no lapse. -/
theorem calm_of_tick (h : (tick host).on e = (.ok r, e')) : Calm host (trials host e) := by
  intro t mem
  cases lapse : t.lapse? host with
  | none => rfl
  | some f =>
    have failed := tick_of_failed mem (congrArg Prod.fst (Trial.result_of_lapse lapse))
    rw [h] at failed
    cases failed

/-- Whatever handlers two engines have that are alike otherwise, and whatever these
    answer: as long as no handler raises a fault that cannot be worded, their ticks
    come to the same. If they come to an end, they processed the same events, the same
    rules fired, the same events were enqueued, dropped and deferred and the same
    issues came up apart from the failures of handlers; if they fail, they do so with
    the same fault. In either case the stores, the queues and all else that is not the
    handlers' are the same afterwards. Of a rule that fires, every action which some
    handler takes is dispatched, in order and whatever was answered before. But a
    fault that cannot be worded ends the dispatches of its rule, and the tick with what
    comes of wording it. What a tick that comes to an end reports of handlers are its
    dispatches, and exactly one issue for each whose handler raised a fault. -/
theorem tick_regardless {e : Engine η ω} {k : Engine η' ω'} (outward : host.IsOutward)
    (outward' : host'.IsOutward) (twins : Twins e k) :
    (Calm host (trials host e) → Calm host' (trials host' k) →
      ((tick host).on e).1.map Report.inward = ((tick host').on k).1.map Report.inward ∧
        Twins ((tick host).on e).2 ((tick host').on k).2) ∧
      (∀ t ∈ trials host e, t.Fires →
        let taken := t.rule.actions.filter fun action => (e.dispatcher.handler? action).isSome
        (t.dispatches host).map (·.action) <+: taken ∧
          (t.lapse? host = none → (t.dispatches host).map (·.action) = taken)) ∧
      (∀ t ∈ trials host e, ∀ f, t.lapse? host = some f → ((tick host).on e).1 = .error f) ∧
      ∀ r e', (tick host).on e = (.ok r, e') →
        let ds := (trials host e).flatMap (·.dispatches host)
        r.calls = ds.map (·.call) ∧
        r.issues.filter (·.kind = .actionFailed) = ds.filterMap (·.failure? host) ∧
        ∀ d ∈ ds, (d.failure? host).isSome ↔ ∃ f, d.answer host = .error f := by
  refine ⟨fun calm calm' => ?_, actions_trials outward, fun t mem f lapse => ?_,
    fun r e' returned => ⟨calls_tick returned, failures_tick returned, fun d mem => ?_⟩⟩
  · obtain ⟨outcomes, left⟩ := twins_tick outward outward' twins calm calm'
    exact ⟨outcomes.map_eq, left⟩
  · exact tick_of_failed mem (congrArg Prod.fst (Trial.result_of_lapse lapse))
  · obtain ⟨t, tried, mem⟩ := List.mem_flatMap.mp mem
    have calm : t.lapse? host = none := calm_of_tick returned t tried
    exact Dispatch.isSome_failure? (lapseOf_eq_none.mp calm d mem)

namespace Revels

/-- Drinks the wine, and has three actions for it. -/
def toast : Rule :=
  ⟨"toast", "feast", .always, [⟨.name "wine", none, .decrement (.constant (.int 1))⟩],
    ["cheer", "sing", "dance"], ["speech"], .bool false, .int 0, .bool true⟩

/-- An engine without handlers, on which the feast is pending. -/
def quiet : Engine Unit Unit :=
  { ofConfig .default (.collecting []) () with
    store := .ofFacts (.ofList [("wine", .int 3)])
    registry := Registry.empty.append Registry.globalScope [toast]
    queue := ⟨[⟨"feast", ∅, "feast", none⟩]⟩ }

/-- The engine with some handler for the cheers and for the songs, and one that raises
    nothing for all the rest. -/
def loud (voice : Fault) : Engine (Option Fault) Nat :=
  { (ofConfig .default (.collecting []) 0 : Engine (Option Fault) Nat) with
    store := quiet.store
    registry := quiet.registry
    dispatcher := ⟨[("cheer", some voice), ("sing", some voice)], some none⟩
    queue := quiet.queue }

/-- Handlers that count the calls and raise a fault if they have one. -/
def voices : Reaction (Option Fault) Nat := fun fault? call => do
  Reaction.counting () call
  match fault? with
  | some f => throw f
  | none => return

theorem twins (voice : Fault) : Twins (loud voice) quiet := ⟨rfl, rfl, rfl, rfl, rfl, rfl, rfl⟩

/-- A voice that tells what is wrong with it. -/
def hoarse : Fault := .hostRaised "hoarse"

/-- A voice that fails again when it tells what is wrong with it. -/
def choked : Fault := .hostUnworded (.hostRaised "choked")

/-- Two of the three handlers fail, and nothing else comes of it. -/
theorem feast_regardless :
    ∃ r e' r' k', (tick (.ofReaction voices)).on (loud hoarse) = (.ok r, e') ∧
      (tick (.ofReaction .silent)).on quiet = (.ok r', k') ∧
      r.inward = r'.inward ∧ Twins e' k' ∧
      r.calls.map (·.action) = ["cheer", "sing", "dance"] ∧ r'.calls.length = 0 ∧
      (r.issues.filter (·.kind = .actionFailed)).length = 2 ∧ r.enqueued.length = 1 ∧
      r.calls = ((trials (.ofReaction voices) (loud hoarse)).flatMap
        (·.dispatches (.ofReaction voices))).map (·.call) := by
  have counts : ((tick (.ofReaction voices)).on (loud hoarse)).1.toOption.map (fun r =>
      (r.calls.map (·.action), (r.issues.filter (·.kind = .actionFailed)).length,
        r.enqueued.length)) = some (["cheer", "sing", "dance"], 2, 1) := by
    decide +kernel
  have counts' : ((tick (.ofReaction .silent)).on quiet).1.toOption.map (·.calls.length)
      = some 0 := by
    decide +kernel
  have calm : Calm (.ofReaction voices) (trials (.ofReaction voices) (loud hoarse)) := by
    decide +kernel
  have calm' : Calm (.ofReaction .silent) (trials (.ofReaction .silent) quiet) := by
    decide +kernel
  obtain ⟨agree, -, -, reports⟩ := tick_regardless (Host.isOutward_ofReaction voices)
    (Host.isOutward_ofReaction Reaction.silent) (twins hoarse)
  obtain ⟨outcomes, left⟩ := agree calm calm'
  rcases ran : (tick (.ofReaction voices)).on (loud hoarse) with ⟨outcome, e'⟩
  rcases ran' : (tick (.ofReaction .silent)).on quiet with ⟨outcome', k'⟩
  rw [ran] at counts outcomes left
  rw [ran'] at counts' outcomes left
  obtain ⟨r, rfl, told⟩ := exists_of_map_toOption counts
  obtain ⟨r', rfl, none⟩ := exists_of_map_toOption counts'
  obtain ⟨calls, told⟩ := Prod.mk.inj told
  obtain ⟨failures, enqueued⟩ := Prod.mk.inj told
  exact ⟨r, e', r', k', rfl, rfl, Except.ok.inj outcomes, left, calls, none, failures, enqueued,
    (reports r e' ran).1⟩

/-- The first voice has a fault that cannot be worded: the tick fails, no issue is
    raised, the other two are not called, and there will be no speech, although the wine
    is gone. Without handlers the tick comes to an end, with the speech. -/
theorem feast_choked :
    Twins (loud choked) quiet ∧
      ((tick (.ofReaction voices)).on (loud choked)).1.isOk = false ∧
      ((tick (.ofReaction voices)).on (loud choked)).2.host = 1 ∧
      ((tick (.ofReaction voices)).on (loud choked)).2.sink.kinds = [] ∧
      ((tick (.ofReaction voices)).on (loud choked)).2.store.visible? (.name "wine")
        = some (.int 2) ∧
      ((tick (.ofReaction .silent)).on quiet).1.toOption.map (·.enqueued.length)
        = some 1 := by
  exact ⟨twins choked, by decide +kernel⟩

end Revels

end Engine

end Cascade
