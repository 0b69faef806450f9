-- SUMMARY: What comes of a tick tallies with its turns: it fails exactly as one of them does, and otherwise it reports what they did.
import Cascade.Proofs.Engine.Depths
import Cascade.Proofs.Engine.Ready
import Cascade.Proofs.Engine.Turns

/-! # Tallies

Between its turns a tick only fetches events, looks rules up and counts passes.
In a ready engine nothing of this can fail, since all priorities are integers and
can be compared. So a tick fails only where one of its turns does, and if none of
them does its report is their reports, added up. -/

namespace Cascade

open Attempt

/-- What rules did, of everything in a report. -/
def Report.deeds (r : Report) : Report :=
  { Report.empty with
    fired := r.fired
    calls := r.calls
    enqueued := r.enqueued
    issues := r.issues.filter (·.kind ≠ .cascadeDepthExceeded) }

theorem Report.deeds_append (r r' : Report) : (r ++ r').deeds = r.deeds ++ r'.deeds := by
  change (append r r').deeds = append r.deeds r'.deeds
  simp [deeds, append, empty]

namespace Engine

variable {η ω : Type} {host : Host η ω} {react : Reaction η ω} {event : Event}
  {e e' : Engine η ω} {r : Report} {ts ts' : List (Turn η ω)}

/-! ## Outcomes and turns -/

/-- An outcome tallies with turns of sound rules in ready engines: one of them has
    failed in the same way, or all of them have come to an end and what they did
    is reported. -/
structure Tallies (host : Host η ω) (ts : List (Turn η ω)) (x : Except Fault Report) :
    Prop where
  ready : ∀ t ∈ ts, t.before.Ready true ∧ t.rule.IsSound
  fails : ∀ f, x = .error f → ∃ t ∈ ts, t.result host = .error f
  returns : ∀ r, x = .ok r → (∀ t ∈ ts, ∃ outcome, t.result host = .ok outcome) ∧
    r.deeds = (Report.total (ts.map (·.report host))).deeds

namespace Tallies

/-- Where rules did nothing there need not be a turn. -/
theorem quiet (h : r.deeds = .empty) : Tallies host [] (.ok r) where
  ready := List.forall_mem_nil _
  fails f hf := by cases hf
  returns r' hr := by
    cases hr
    exact ⟨List.forall_mem_nil _, h⟩

/-- A turn by itself. -/
theorem single (t : Turn η ω) (ready : t.before.Ready true) (sound : t.rule.IsSound) :
    Tallies host [t] ((t.result host).map (·.report)) := by
  have isReady : ∀ t' ∈ [t], t'.before.Ready true ∧ t'.rule.IsSound := by
    intro t' ht
    obtain rfl := List.mem_singleton.mp ht
    exact ⟨ready, sound⟩
  cases h : t.result host with
  | error f =>
    refine ⟨isReady, fun g hg => ?_, nofun⟩
    cases hg
    exact ⟨t, List.mem_singleton_self t, h⟩
  | ok outcome =>
    refine ⟨isReady, nofun, fun r hr => ?_⟩
    cases hr
    refine ⟨fun t' ht => ?_, ?_⟩
    · obtain rfl := List.mem_singleton.mp ht
      exact ⟨outcome, h⟩
    · simp [Report.total, Turn.report, h, Except.toOption]

/-- Turns one after the other. -/
theorem append {x : Except Fault Report} (first : Tallies host ts (.ok r))
    (others : Tallies host ts' x) : Tallies host (ts ++ ts') (x.map (r ++ ·)) where
  ready := List.forall_mem_append.mpr ⟨first.ready, others.ready⟩
  fails f hf := by
    cases x with
    | error g =>
      cases hf
      obtain ⟨t, mem, failed⟩ := others.fails f rfl
      exact ⟨t, List.mem_append_right ts mem, failed⟩
    | ok r' => cases hf
  returns r'' hr := by
    cases x with
    | error g => cases hr
    | ok r' =>
      cases hr
      obtain ⟨ended, deeds⟩ := first.returns r rfl
      obtain ⟨ended', deeds'⟩ := others.returns r' rfl
      refine ⟨List.forall_mem_append.mpr ⟨ended, ended'⟩, ?_⟩
      rw [List.map_append, Report.total_append, Report.deeds_append, Report.deeds_append, deeds,
        deeds']

/-- What follows an attempt adds its turns, if the attempt succeeds. -/
theorem onward {a b : Attempt (Engine η ω) Report} {next : Engine η ω → List (Turn η ω)}
    (first : Tallies host ts (a.on e).1)
    (others : ∀ r e', a.on e = (.ok r, e') → Tallies host (next e') (b.on e').1) :
    Tallies host (ts ++ a.onward e fun _ e' => next e')
      ((do return (← a) ++ (← b) : Attempt (Engine η ω) Report).on e).1 := by
  rcases ha : a.on e with ⟨f | r, e'⟩
  · rw [ha] at first
    rw [onward_of_error ha, List.append_nil, bind_of_error ha]
    exact first
  · rw [ha] at first
    rw [onward_of_ok ha, bind_of_ok ha, outcome_then_pure]
    exact first.append (others r e' ha)

end Tallies

/-! ## Events -/

/-- In a ready engine every event finds its rules. -/
theorem rulesForEvent_ready {d : Bool} (ready : e.Ready d) (event : String) :
    e.registry.rulesForEvent event = .ok ((e.registry.route event).map (·.2)) := by
  have rank : ∀ scope, ∀ rule ∈ e.registry.rulesOf scope,
      ∃ n : ℤ, rule.priority.exactValue? = some (.ofInt n) := by
    intro scope rule mem
    obtain ⟨n, hn⟩ := (ready.sound scope rule mem).priority
    refine ⟨n, ?_⟩
    rw [hn]
    rfl
  have ordered : e.registry.IsOrdered := by
    intro scope rule mem nan
    obtain ⟨n, hn⟩ := rank scope rule mem
    rw [hn] at nan
    cases nan
  have ranked : (e.registry.stations event).all (·.2.isRanked) := by
    rw [List.all_eq_true]
    intro station mem
    obtain ⟨n, hn⟩ := rank station.1 station.2 (Registry.mem_stations mem)
    rw [Rule.isRanked, hn]
    rfl
  rw [Registry.rulesForEvent_eq ordered, if_pos ranked]

theorem tallies_applyRules {route : List (String × Rule)} (ready : e.Ready true)
    (sound : ∀ station ∈ route, station.2.IsSound) :
    Tallies (.ofReaction react) (turnsOn (.ofReaction react) event route e)
      ((applyRules (.ofReaction react) event (route.map (·.2))).on e).1 := by
  induction route generalizing e with
  | nil => exact .quiet rfl
  | cons station rest ih =>
    obtain ⟨scope, rule⟩ := station
    obtain ⟨hrule, hrest⟩ := List.forall_mem_cons.mp sound
    have turn : Tallies (.ofReaction react) [⟨event, scope, rule, e⟩] _ :=
      .single _ ready hrule
    have left := (ready_applyRule react event rule).holds ready
    rcases applied : (applyRule (.ofReaction react) event rule).on e with ⟨f | outcome, e₁⟩
    · rw [Turn.result, applied] at turn
      rw [turnsOn, onward_of_error applied, List.map_cons, applyRules, bind_of_error applied]
      exact turn
    · rw [Turn.result, applied] at turn
      rw [applied] at left
      rw [turnsOn_cons applied, List.map_cons, applyRules, bind_of_ok applied]
      cases hc : outcome.consumed with
      | true =>
        simp only [if_true, on_pure]
        exact turn
      | false =>
        simp only [Bool.false_eq_true, if_false]
        rw [outcome_then_pure]
        exact turn.append (ih left hrest)

theorem tallies_process (ready : e.Ready true) :
    Tallies (.ofReaction react) (turnsAt (.ofReaction react) event e)
      ((process (.ofReaction react) event).on e).1 := by
  have found : (Attempt.reading (·.registry.rulesForEvent event.id)).on e
      = (.ok ((e.registry.route event.id).map (·.2)), e) :=
    Prod.ext (rulesForEvent_ready ready event.id) rfl
  have sound : ∀ station ∈ e.registry.route event.id, station.2.IsSound := by
    intro station mem
    exact ready.sound station.1 station.2 (Registry.mem_stations (List.mem_mergeSort.mp mem))
  have fetched : Tallies (.ofReaction react) [] (.ok (.event event)) := .quiet rfl
  rw [turnsAt, onward_of_ok found, process, bind_of_ok found, outcome_then_pure]
  rw [← List.nil_append (turnsOn _ _ _ _)]
  exact fetched.append (tallies_applyRules ready sound)

theorem tallies_processAll {batch : List Event} (ready : e.Ready true) :
    Tallies (.ofReaction react) (turnsOf (.ofReaction react) batch e)
      ((processAll (.ofReaction react) batch).on e).1 := by
  induction batch generalizing e with
  | nil => exact .quiet rfl
  | cons event rest ih =>
    refine (tallies_process ready).onward fun r e' processed => ih ?_
    have left := (ready_process react event).holds ready
    rw [processed] at left
    exact left

/-! ## Passes -/

theorem turnsIn_of_empty (h : e.queue.pending = []) (n : Nat) : turnsIn host n e = [] := by
  cases n with
  | zero => rfl
  | succ n => rw [turnsIn, if_pos h]

/-- An overflow is not the doing of a rule. -/
theorem tallies_overflow (e : Engine η ω) : Tallies host [] (overflow.on e).1 := by
  have kind : e.excess.kind = .cascadeDepthExceeded := rfl
  rw [on_overflow]
  cases e.config.overflow with
  | drop =>
    refine .quiet ?_
    simp [Report.deeds, Report.dropping, Report.issue, Report.empty, kind]
  | defer =>
    refine .quiet ?_
    simp [Report.deeds, Report.deferring, Report.issue, Report.empty, kind]

theorem tallies_passes {allowed : Nat} (ready : e.Ready true) (pending : e.queue.pending ≠ [])
    (deep : allowed ≤ e.config.maxDepth) :
    Tallies (.ofReaction react) (turnsIn (.ofReaction react) (allowed + 1) e)
      ((passes (.ofReaction react) allowed e.queue.pending).on { e with queue := .empty }).1 := by
  -- on the passes still allowed after the first: each of them takes up what the one before left
  induction allowed using Nat.strongRecOn generalizing e with
  | ind allowed ih =>
  have drained : ({ e with queue := .empty } : Engine η ω).Ready true :=
    ⟨ready.sound, ready.free, ready.draining⟩
  have processed : Tallies (.ofReaction react) (turnsOf (.ofReaction react) e.queue.pending _) _ :=
    tallies_processAll drained
  have left := (ready_processAll react e.queue.pending).holds drained
  rw [turnsIn, if_neg pending]
  rcases h : (processAll (.ofReaction react) e.queue.pending).on { e with queue := .empty }
    with ⟨f | r, e₁⟩
  · rw [h] at processed
    have failed : (pass (.ofReaction react)).on e = (.error f, e₁) := by
      rw [pass, bind_of_ok (on_drain e), bind_of_error h]
    rw [onward_of_error failed, List.append_nil, passes.eq_def, bind_of_error h]
    exact processed
  · rw [h] at processed left
    have first := pass_of_processAll h
    have begun : Tallies (.ofReaction react) ([] ++ _) (.ok (.pass ++ r)) :=
      Tallies.append (.quiet rfl) processed
    have depth : e₁.config.maxDepth = e.config.maxDepth :=
      congrArg Config.maxDepth (pass_passed (Host.isOutward_ofReaction react) first).config
    rw [onward_of_ok first, passes_after first]
    by_cases stop : e₁.queue.pending = [] ∨ e₁.config.maxDepth = 0
    · have none : turnsIn (.ofReaction react) allowed e₁ = [] := by
        rcases stop with empty | zero
        · exact turnsIn_of_empty empty allowed
        · obtain rfl : allowed = 0 := by omega
          rfl
      rw [if_pos stop, none, List.append_nil]
      exact begun
    · rw [if_neg stop]
      rw [not_or] at stop
      cases allowed with
      | zero =>
        dsimp only
        rw [outcome_then_pure]
        exact begun.append (tallies_overflow e₁)
      | succ n =>
        dsimp only
        rw [outcome_then_pure]
        exact begun.append (ih n (Nat.lt_succ_self n) left stop.1 (by omega))

/-! ## Ticks -/

theorem tallies_drainAll (ready : e.Ready true) :
    Tallies (.ofReaction react) (turnsIn (.ofReaction react) (e.config.maxDepth + 1) e)
      ((drainAll (.ofReaction react)).on e).1 := by
  rw [drainAll, bind_of_ok (on_drain e)]
  by_cases empty : e.queue.pending = []
  · rw [turnsIn_of_empty empty]
    simp only [empty, List.isEmpty_nil, if_true, on_pure]
    exact .quiet rfl
  · simp only [List.isEmpty_eq_false_iff.mpr empty]
    exact tallies_passes ready empty (Nat.le_refl _)

/-- What comes of a tick of a ready engine tallies with its turns. -/
theorem tallies_tick (react : Reaction η ω) (ready : e.Ready false) :
    Tallies (.ofReaction react) (turns (.ofReaction react) e)
      ((tick (.ofReaction react)).on e).1 := by
  have idle : ¬e.draining = true := by simp [ready.draining]
  rw [tick_on, if_neg idle]
  exact tallies_drainAll ⟨ready.sound, ready.free, rfl⟩

end Engine

end Cascade
