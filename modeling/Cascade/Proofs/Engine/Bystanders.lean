-- SUMMARY: A rule that does not fire in a tick might as well not be registered: the tick without it does the same and tells of the same but the failures of that rule.
import Cascade.Proofs.Engine.Depths
import Cascade.Proofs.Engine.Turns

/-! # Rules that do not fire

A turn in which the rule does not fire leaves no trace in the store, the queue
or the host, and the event goes on to the next rule: at most an issue tells that
the rule could not be evaluated. So a tick in which a rule never fires runs in
parallel with the tick of the engine without the rule, turn by turn, and the
two engines stay kin all along. -/

namespace Cascade

open Attempt

namespace Engine

variable {η ω : Type} {react : Reaction η ω} {host : Host η ω} {event : Event} {rule : Rule}
  {scope : String} {e e' k : Engine η ω} {rel : Registry → Registry → Prop}

/-! ## A turn without effect -/

/-- The issues that a rule raises when it cannot be evaluated. -/
def Blames (rule : Rule) (i : Issue) : Prop := ∃ f event, i = blame f rule event

theorem fired_fire {outputs : List Document} {r : Report}
    (h : (fire host rule event outputs).on e = (.ok r, e')) : r.fired ≠ [] := by
  obtain ⟨⟨⟩, e₁, -, h⟩ := of_bind_ok h
  obtain ⟨e₂, e₃, -, h⟩ := of_bind_ok h
  obtain ⟨called, e₄, -, h⟩ := of_bind_ok h
  obtain ⟨put, e₅, -, h⟩ := of_bind_ok h
  obtain ⟨rfl, rfl⟩ := of_pure_ok h
  exact nofun

/-- A rule that does not fire leaves the event to the others. It does nothing to
    the engine, or it raises an issue and does nothing else. -/
theorem applyRule_idle {outcome : Outcome}
    (h : (applyRule host event rule).on e = (.ok outcome, e')) (idle : outcome.report.fired = []) :
    outcome.consumed = false ∧ (outcome.report = .empty ∧ e' = e ∨
      ∃ f, outcome.report = .issue (blame f rule event) ∧ e' = e.told (blame f rule event)) := by
  rw [applyRule_on] at h
  cases holds : rule.condition.check (event.lookup e.store) with
  | error f =>
    simp only [holds] at h
    split at h
    · cases h
      exact ⟨rfl, .inr ⟨f, rfl, rfl⟩⟩
    · cases h
  | ok truth =>
    cases truth with
    | false =>
      simp only [holds] at h
      cases h
      exact ⟨rfl, .inl ⟨rfl, rfl⟩⟩
    | true =>
      have writing := writing_applyAll event.blind_lookup e.config.layer rule.modifications
      rcases ht : (transaction (applyAll event.lookup e.config.layer rule.modifications)).on
          e.store with ⟨f | f | outputs, store⟩
      · simp only [holds, ht] at h
        cases h
      · simp only [holds, ht] at h
        cases h
        obtain rfl := transaction_undone writing ht
        exact ⟨rfl, .inr ⟨f, rfl, rfl⟩⟩
      · simp only [holds, ht] at h
        obtain ⟨r, e₁, fired, h⟩ := of_bind_ok h
        obtain ⟨rfl, rfl⟩ := of_pure_ok h
        exact absurd idle (fired_fire fired)

/-! ## Reports apart from a rule -/

/-- Two reports agree but for some issues that a rule raised because it could not
    be evaluated: those the second one has not got. -/
structure Spared (rule : Rule) (r r' : Report) : Prop where
  same : r' = { r with issues := r'.issues }
  issues : Thinned (Blames rule) r.issues r'.issues

namespace Spared

variable {r r' s s' : Report}

theorem refl (rule : Rule) (r : Report) : Spared rule r r := ⟨rfl, .refl _⟩

theorem append (h : Spared rule r r') (h' : Spared rule s s') :
    Spared rule (r ++ s) (r' ++ s') := by
  refine ⟨?_, h.issues.append h'.issues⟩
  rw [h.same, h'.same]
  rfl

/-- An issue of the rule may be left out. -/
theorem blamed (f : Fault) (event : Event) : Spared rule (.issue (blame f rule event)) .empty :=
  ⟨rfl, .drop ⟨f, event, rfl⟩ .nil⟩

end Spared

/-! ## Rules and events -/

/-- A rule does not fire in any of some turns. -/
def IsIdle (host : Host η ω) (scope : String) (rule : Rule) (ts : List (Turn η ω)) : Prop :=
  ∀ t ∈ ts, t.scope = scope → t.rule = rule → (t.report host).fired = []

theorem applyRules_without {route route' : List (String × Rule)} {r : Report}
    (thin : Thinned (· = (scope, rule)) route route') (akin : Kin rel e k)
    (idle : IsIdle (.ofReaction react) scope rule (turnsOn (.ofReaction react) event route e))
    (h : (applyRules (.ofReaction react) event (route.map (·.2))).on e = (.ok r, e')) :
    ∃ r' k', (applyRules (.ofReaction react) event (route'.map (·.2))).on k = (.ok r', k') ∧
      Kin rel e' k' ∧ Spared rule r r' := by
  -- on the route: stations that are kept are passed by both, the others by the first one only
  induction thin generalizing e k r with
  | nil =>
    obtain ⟨rfl, rfl⟩ := of_pure_ok h
    exact ⟨.empty, k, rfl, akin, .refl rule _⟩
  | @keep station rest rest' _ ih =>
    obtain ⟨scope', rule'⟩ := station
    obtain ⟨outcome, e₁, applied, h⟩ := of_bind_ok h
    obtain ⟨k₁, applied', akin₁⟩ := (kin_applyRule event rule').of_ok akin applied
    rw [turnsOn_cons applied] at idle
    cases hc : outcome.consumed with
    | true =>
      simp only [hc, if_true] at h
      obtain ⟨rfl, rfl⟩ := of_pure_ok h
      refine ⟨outcome.report, k₁, ?_, akin₁, .refl rule _⟩
      rw [List.map_cons, applyRules, bind_of_ok applied']
      simp only [hc, if_true, on_pure]
    | false =>
      simp only [hc, Bool.false_eq_true, if_false] at h idle
      obtain ⟨r₂, e₂, others, h⟩ := of_bind_ok h
      obtain ⟨rfl, rfl⟩ := of_pure_ok h
      obtain ⟨r', k', others', akin', spared⟩ :=
        ih akin₁ (fun t ht => idle t (List.mem_cons_of_mem _ ht)) others
      refine ⟨outcome.report ++ r', k', ?_, akin', (Spared.refl rule _).append spared⟩
      rw [List.map_cons, applyRules, bind_of_ok applied']
      simp only [hc, Bool.false_eq_true, if_false, on_bind, others', on_pure]
  | @drop station rest rest' left _ ih =>
    subst left
    obtain ⟨outcome, e₁, applied, h⟩ := of_bind_ok h
    rw [turnsOn_cons applied] at idle
    have quiet : outcome.report.fired = [] := by
      have first := idle _ (List.mem_cons_self ..) rfl rfl
      rw [Turn.report_of_ok applied scope] at first
      exact first
    obtain ⟨hc, trace⟩ := applyRule_idle applied quiet
    simp only [hc, Bool.false_eq_true, if_false] at h idle
    obtain ⟨r₂, e₂, others, h⟩ := of_bind_ok h
    obtain ⟨rfl, rfl⟩ := of_pure_ok h
    have idle' := fun t ht => idle t (List.mem_cons_of_mem _ ht)
    rcases trace with ⟨silent, rfl⟩ | ⟨f, told, rfl⟩
    · rw [silent, Report.empty_append]
      exact ih akin idle' others
    · obtain ⟨r', k', others', akin', spared⟩ := ih akin.told_left idle' others
      refine ⟨r', k', others', akin', ?_⟩
      rw [told, ← Report.empty_append r']
      exact (Spared.blamed f event).append spared

/-- The registry of an engine and the one of the engine without a rule. -/
def Without (all : Registry) (scope : String) (rule : Rule) (r r' : Registry) : Prop :=
  r = all ∧ r' = (all.unregister rule.id scope).2

section Unregistered

variable {all : Registry} (ordered : all.IsOrdered)
  (registered : all.get? rule.id scope = some rule)
include ordered registered

theorem process_without {r : Report} (akin : Kin (Without all scope rule) e k)
    (idle : IsIdle (.ofReaction react) scope rule (turnsAt (.ofReaction react) event e))
    (h : (process (.ofReaction react) event).on e = (.ok r, e')) :
    ∃ r' k', (process (.ofReaction react) event).on k = (.ok r', k') ∧
      Kin (Without all scope rule) e' k' ∧ Spared rule r r' := by
  obtain ⟨rfl, without⟩ := akin.registry
  obtain ⟨rules, e₁, found, h⟩ := of_bind_ok h
  obtain ⟨r₁, e₂, applied, h⟩ := of_bind_ok h
  obtain ⟨rfl, rfl⟩ := of_pure_ok h
  rw [turnsAt, onward_of_ok found] at idle
  obtain ⟨matching, rfl⟩ := Prod.mk.inj found
  obtain ⟨rfl, -⟩ := Registry.of_rulesForEvent ordered matching
  have thin := Registry.thinned_route registered event.id
  have matching' := Registry.rulesForEvent_unregister ordered registered matching
  rw [← without] at thin matching'
  obtain ⟨r', k', applied', akin', spared⟩ := applyRules_without thin akin idle applied
  have found' : (Attempt.reading (·.registry.rulesForEvent event.id)).on k
      = (.ok ((k.registry.route event.id).map (·.2)), k) := Prod.ext matching' rfl
  refine ⟨.event event ++ r', k', ?_, akin', (Spared.refl rule _).append spared⟩
  rw [process, bind_of_ok found', bind_of_ok applied', on_pure]

theorem processAll_without {batch : List Event} {r : Report}
    (akin : Kin (Without all scope rule) e k)
    (idle : IsIdle (.ofReaction react) scope rule (turnsOf (.ofReaction react) batch e))
    (h : (processAll (.ofReaction react) batch).on e = (.ok r, e')) :
    ∃ r' k', (processAll (.ofReaction react) batch).on k = (.ok r', k') ∧
      Kin (Without all scope rule) e' k' ∧ Spared rule r r' := by
  induction batch generalizing e k r with
  | nil =>
    obtain ⟨rfl, rfl⟩ := of_pure_ok h
    exact ⟨.empty, k, rfl, akin, .refl rule _⟩
  | cons event rest ih =>
    obtain ⟨r₁, e₁, first, h⟩ := of_bind_ok h
    obtain ⟨r₂, e₂, others, h⟩ := of_bind_ok h
    obtain ⟨rfl, rfl⟩ := of_pure_ok h
    rw [turnsOf, onward_of_ok first] at idle
    obtain ⟨r₁', k₁, first', akin₁, spared₁⟩ :=
      process_without ordered registered akin (fun t ht => idle t (List.mem_append_left _ ht)) first
    obtain ⟨r₂', k₂, others', akin₂, spared₂⟩ :=
      ih akin₁ (fun t ht => idle t (List.mem_append_right _ ht)) others
    refine ⟨r₁' ++ r₂', k₂, ?_, akin₂, spared₁.append spared₂⟩
    rw [processAll, bind_of_ok first', bind_of_ok others', on_pure]

/-! ## Passes and ticks -/

theorem pass_without {r : Report} (akin : Kin (Without all scope rule) e k)
    (idle : IsIdle (.ofReaction react) scope rule
      (turnsOf (.ofReaction react) e.queue.pending { e with queue := .empty }))
    (h : (pass (.ofReaction react)).on e = (.ok r, e')) :
    ∃ r' k', (pass (.ofReaction react)).on k = (.ok r', k') ∧
      Kin (Without all scope rule) e' k' ∧ Spared rule r r' := by
  obtain ⟨batch, e₁, drained, h⟩ := of_bind_ok h
  obtain ⟨r₁, e₂, processed, h⟩ := of_bind_ok h
  obtain ⟨rfl, rfl⟩ := of_pure_ok h
  obtain ⟨k₁, drained', akin₁⟩ := kin_drain.of_ok akin drained
  cases drained
  obtain ⟨r', k', processed', akin', spared⟩ :=
    processAll_without ordered registered akin₁ idle processed
  refine ⟨.pass ++ r', k', ?_, akin', (Spared.refl rule _).append spared⟩
  rw [pass, bind_of_ok drained', bind_of_ok processed', on_pure]

/-- Passes in which a rule does not fire are made without it as well. -/
theorem Passes.without {rs : List Report} {n : Nat} (h : Passes (.ofReaction react) e rs e')
    (few : rs.length ≤ n) (akin : Kin (Without all scope rule) e k)
    (idle : IsIdle (.ofReaction react) scope rule (turnsIn (.ofReaction react) n e)) :
    ∃ rs' k', Passes (.ofReaction react) k rs' k' ∧ rs'.length = rs.length ∧
      Kin (Without all scope rule) e' k' ∧ Spared rule (Report.total rs) (Report.total rs') := by
  induction h generalizing k n with
  | rest e => exact ⟨[], k, .rest k, rfl, akin, .refl rule _⟩
  | next pending first _ ih =>
    obtain ⟨m, rfl⟩ : ∃ m, n = m + 1 := ⟨n - 1, by simp only [List.length_cons] at few; omega⟩
    rw [turnsIn, if_neg pending, onward_of_ok first] at idle
    obtain ⟨r', k₁, first', akin₁, spared⟩ :=
      pass_without ordered registered akin (fun t ht => idle t (List.mem_append_left _ ht)) first
    obtain ⟨rs', k', others, same, akin', spared'⟩ := ih (by simpa using few) akin₁
      fun t ht => idle t (List.mem_append_right _ ht)
    rw [← akin.queue] at pending
    exact ⟨r' :: rs', k', .next pending first' others, by simp [same], akin',
      spared.append spared'⟩

end Unregistered

/-- Kin with the same settings come to the same end. -/
theorem Ending.kin {left : Nat} {last last' : Engine η ω} {ended : Report}
    (h : Ending left last ended e') (akin : Kin rel last last')
    (config : last'.config = last.config) :
    ∃ k', Ending left last' ended k' ∧ Kin rel e' k' ∧ k'.config = e'.config := by
  have queue := akin.queue
  cases h with
  | stopped stopped =>
    rw [← queue, ← config] at stopped
    exact ⟨last', .stopped stopped, akin, config⟩
  | overflown none deep remain exceeds =>
    have excess : last'.excess = last.excess := by
      rw [Engine.excess, Engine.excess, config, queue]
    have policy' : last'.config.overflow = last.config.overflow := by rw [config]
    have exceeds' := on_overflow last'
    rw [on_overflow] at exceeds
    rw [policy', queue, excess] at exceeds'
    rw [← config] at deep
    rw [← queue] at remain
    cases policy : last.config.overflow with
    | drop =>
      rw [policy] at exceeds exceeds'
      cases exceeds
      exact ⟨_, .overflown none deep remain exceeds', akin.emptied.told _, config⟩
    | defer =>
      rw [policy] at exceeds exceeds'
      cases exceeds
      exact ⟨_, .overflown none deep remain exceeds', akin.told _, config⟩

/-- What a tick does and reports in which a rule does not fire, it does and
    reports without the rule, and the issues that tell that the rule could not
    be evaluated are all that is missing. -/
theorem tick_without {r : Report} (react : Reaction η ω)
    (ordered : e.registry.IsOrdered) (registered : e.registry.get? rule.id scope = some rule)
    (idle : ∀ t ∈ turns (.ofReaction react) e, t.scope = scope → t.rule = rule →
      (t.report (.ofReaction react)).fired = [])
    (h : (tick (.ofReaction react)).on e = (.ok r, e')) :
    let without := (e.registry.unregister rule.id scope).2
    ∃ r' k', (tick (.ofReaction react)).on { e with registry := without } = (.ok r', k') ∧
      k' = { e' with registry := without, sink := k'.sink, log := k'.log } ∧
      r' = { r with issues := r'.issues } ∧ Thinned (Blames rule) r.issues r'.issues := by
  intro without
  have outward := Host.isOutward_ofReaction react
  have busy := idle_of_tick h
  obtain ⟨e₁, drained, rfl⟩ := tick_split h
  obtain ⟨rs, last, ended, left, passes, begun, count, rfl, ending⟩ := drainAll_split drained
  have count : rs.length + left = e.config.maxDepth + 1 := count
  have akin : Kin (Without e.registry scope rule) { e with draining := true }
      { e with registry := without, draining := true } :=
    ⟨_, _, _, _, _, ⟨rfl, rfl⟩, rfl⟩
  obtain ⟨rs', last', passes', same, akin', spared⟩ :=
    passes.without ordered registered (by omega) akin idle
  have config : last.config = e.config := (passes.relayed outward).config
  have config' : last'.config = e.config := (passes'.relayed outward).config
  obtain ⟨k₁, ending', akin₁, same'⟩ := ending.kin akin' (config'.trans config.symm)
  have begun' : rs' = [] → e.queue.pending = [] := by
    rintro rfl
    exact begun.mp (List.length_eq_zero_iff.mp same.symm)
  have drained' := drainAll_join outward passes' begun' (by rw [same]; exact count) ending'
  have spared' := spared.append (.refl rule ended)
  refine ⟨_, { k₁ with draining := false }, ?_, ?_, spared'.same, spared'.issues⟩
  · rw [tick_on, if_neg (by simp [busy]), drained']
  · have registry : k₁.registry = without := akin₁.registry.2
    obtain ⟨depth, _, _, _, _, -, rfl⟩ := akin₁
    have depth_eq : depth = e₁.config.maxDepth := congrArg Config.maxDepth same'
    subst depth_eq
    subst registry
    rfl

/-! ## A rule that fails -/

namespace Spiral

/-- A rule that cannot be evaluated as long as nothing is known of its fact. -/
def giddy : Rule :=
  ⟨"giddy", "stop", .expr (.fact (.name "giddiness")) none, [], [], ["go"], .bool true, .int 1,
    .bool true⟩

/-- The engine with that rule, on which its event is pending as well. -/
def crowded : Engine Unit Unit :=
  { engine with
    registry := Registry.empty.append Registry.globalScope [turn, giddy]
    queue := ⟨[⟨"stop", ∅, "stop", none⟩, ⟨"go", ∅, "go", none⟩]⟩ }

theorem crowded_ordered : crowded.registry.IsOrdered := by
  refine Registry.forall_put _ (fun other => ?_) fun rule mem => ?_
  · rw [Registry.rulesOf_empty]
    exact nofun
  · obtain rfl | rfl : rule = turn ∨ rule = giddy := by simpa [Registry.rulesOf_empty] using mem
    · exact nofun
    · exact nofun

/-- The rule that cannot be evaluated only tells so: without it one issue less is
    raised, and everything else is the same. -/
theorem crowded_without :
    ∃ r e' r' k', (tick (.ofReaction .silent)).on crowded = (.ok r, e') ∧
      (tick (.ofReaction .silent)).on
        { crowded with registry := (crowded.registry.unregister "giddy" "global").2 }
          = (.ok r', k') ∧
      k' = { e' with
        registry := (crowded.registry.unregister "giddy" "global").2
        sink := k'.sink
        log := k'.log } ∧
      r' = { r with issues := r'.issues } ∧ Thinned (Blames giddy) r.issues r'.issues ∧
      r.issues.length = 2 ∧ r.fired.length = 2 := by
  have ticks : ((tick (.ofReaction .silent)).on crowded).1.toOption.isSome = true := by
    decide +kernel
  have counts : ((tick (.ofReaction .silent)).on crowded).1.toOption.map
      (fun r => (r.issues.length, r.fired.length)) = some (2, 2) := by
    decide +kernel
  have quiet : (turns (.ofReaction .silent) crowded).all fun t =>
      t.rule.id ≠ "giddy" || (t.report (.ofReaction .silent)).fired.isEmpty := by
    decide +kernel
  obtain ⟨r, e', h⟩ := of_isSome ticks
  rw [h] at counts
  have idle : ∀ t ∈ turns (.ofReaction .silent) crowded, t.scope = "global" → t.rule = giddy →
      (t.report (.ofReaction .silent)).fired = [] := by
    intro t ht _ same
    have h := List.all_eq_true.mp quiet t ht
    rw [same] at h
    simpa [giddy] using h
  obtain ⟨r', k', h', same, others, issues⟩ := tick_without Reaction.silent crowded_ordered rfl idle h
  obtain ⟨two, fired⟩ : r.issues.length = 2 ∧ r.fired.length = 2 := by
    simpa [Except.toOption] using counts
  exact ⟨r, e', r', k', h, h', same, others, issues, two, fired⟩

end Spiral

end Engine

end Cascade
