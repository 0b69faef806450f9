-- SUMMARY: Runs of an engine: its operations as moves, the stages they make, and the conservation of events along a run.
import Cascade.Proofs.Engine.Passes

/-! # Runs

A host moves an engine by the operations that the engine has. A list of moves
makes a run, and each move a stage of it, which keeps the engine before and
after the move and what came of it. Only emitting puts events into the queue
from outside and only ticks take them out, in the order of the queue. So an
event is processed or dropped exactly in its turn, or it is still pending. -/

namespace Cascade

open Attempt

namespace Engine

variable {η ω : Type}

/-! ## Moves -/

inductive Move (η : Type) where
  | load (rules : RuleSet) (scope : String)
  | registerRule (rule : Rule) (scope : String)
  | registerAction (action : Document) (handler : η)
  | enterContext (scope : String)
  | exitContext (scope : String)
  | emit (id : Document) (payload : List (String × Datum))
  | tick

namespace Move

def isTick : Move η → Bool
  | tick => true
  | _ => false

/-- An operation of which there is nothing to report. -/
def silently {α : Type} (a : Attempt (Engine η ω) α) : Attempt (Engine η ω) Report := do
  let _ ← a
  return .empty

/-- Carries a move out and reports the events that it enqueued, processed and
    dropped. -/
def run (host : Host η ω) : Move η → Attempt (Engine η ω) Report
  | load rules scope => silently (Engine.load rules scope)
  | registerRule rule scope => silently (Engine.registerRule rule scope)
  | registerAction action handler => silently (Engine.registerAction action handler)
  | enterContext scope => silently (Engine.enterContext scope)
  | exitContext scope => silently (Engine.exitContext scope)
  | emit id payload => do return .output (← Engine.emit id payload)
  | tick => Engine.tick host

end Move

/-! ## Stages -/

/-- A move with the engine before and after it and with what came of it. -/
structure Stage (η ω : Type) where
  move : Move η
  before : Engine η ω
  outcome : Except Fault Report
  after : Engine η ω

namespace Stage

/-- What a move reported; one that failed reported nothing. -/
def report (s : Stage η ω) : Report := s.outcome.toOption.getD .empty

def of (host : Host η ω) (move : Move η) (e : Engine η ω) : Stage η ω :=
  ⟨move, e, ((move.run host).on e).1, ((move.run host).on e).2⟩

end Stage

/-- The stages that some moves make, one after the other. -/
def story (host : Host η ω) : List (Move η) → Engine η ω → List (Stage η ω)
  | [], _ => []
  | move :: moves, e => .of host move e :: story host moves (Stage.of host move e).after

def final (host : Host η ω) (moves : List (Move η)) (e : Engine η ω) : Engine η ω :=
  moves.foldl (fun e move => (Stage.of host move e).after) e

/-! ## Loads -/

/-- One thing that happens to an engine while rules are loaded. -/
inductive Loading (rules : RuleSet) (scope : String) : Engine η ω → Engine η ω → Prop
  | registered {e : Engine η ω} {batch : List Rule} {registry : Registry} :
      e.registry.registerBatch rules.rules scope e.config.duplicates = .ok (batch, registry) →
      Loading rules scope e { e with registry }
  | stored (e : Engine η ω) (facts : List (String × Fact)) (layer : LayerName) :
      Loading rules scope e ((storeAll facts layer).on e).2
  | noted (e : Engine η ω) (seeds : List (String × List (String × Fact))) (log : List LogEntry) :
      Loading rules scope e { e with seeds, log }

theorem takes_load (rules : RuleSet) (scope : String) :
    Takes (Loading rules scope) (load rules scope : Attempt (Engine η ω) (List String)) := by
  have stored (facts : List (String × Fact)) (layer : LayerName) :
      Takes (Loading rules scope) (storeAll facts layer : Attempt (Engine η ω) Unit) :=
    fun e => .single (.stored e facts layer)
  refine Takes.get fun e => ?_
  rcases hr : e.registry.registerBatch rules.rules scope e.config.duplicates
    with f | ⟨registered, registry⟩
  · exact .refl
  · have noted : Takes (Loading rules scope) (do
        note .debug "rule set loaded"
          [("scope", .str scope), ("rules", .int registered.length),
            ("facts", .int rules.facts.length)]
        return registered.map (·.id) : Attempt (Engine η ω) (List String)) :=
      Takes.bind (.modify fun e => .noted e e.seeds _) fun _ _ => .pure _
    refine .head (.registered hr) ?_
    rw [bind_of_ok (on_ofExcept _ _), bind_of_ok (on_set _ _)]
    split
    · exact Takes.bind (stored _ _) (fun _ _ => noted) _
    · have seeded : Takes (Loading rules scope)
          (seed scope rules.facts : Attempt (Engine η ω) Unit) := .modify fun e => .noted e _ e.log
      refine Takes.bind seeded (fun _ _ => ?_) _
      split
      · exact (stored _ _).bind fun _ _ => noted
      · exact noted

/-! ## Moves that leave the queue alone -/

theorem keeps_onStore {α : Type} (a : Attempt Layered α) :
    Keeps queue (onStore a : Attempt (Engine η ω) α) := fun _ => rfl

theorem keeps_onRegistry (f : Registry → Registry) :
    Keeps queue (onRegistry f : Attempt (Engine η ω) Unit) := .modify fun _ => rfl

theorem keeps_note (level : LogLevel) (message : String) (fields : List (String × Document)) :
    Keeps queue (note level message fields : Attempt (Engine η ω) Unit) := .modify fun _ => rfl

theorem keeps_storeAll (facts : List (String × Fact)) (layer : LayerName) :
    Keeps queue (storeAll facts layer : Attempt (Engine η ω) Unit) := keeps_onStore _

theorem keeps_load (rules : RuleSet) (scope : String) :
    Keeps queue (load rules scope : Attempt (Engine η ω) (List String)) := by
  refine (takes_load rules scope).keeps fun e e' step => ?_
  cases step with
  | registered => rfl
  | stored => exact keeps_storeAll _ _ _
  | noted => rfl

theorem keeps_registerRule (rule : Rule) (scope : String) :
    Keeps queue (registerRule rule scope : Attempt (Engine η ω) String) := by
  refine .get fun e => Keeps.given fun registry _ => Keeps.set rfl ?_
  exact .pure rule.id

theorem keeps_registerAction (action : Document) (handler : η) :
    Keeps queue (registerAction action handler : Attempt (Engine η ω) Unit) :=
  .get fun _ => Keeps.given fun _ _ => rfl

theorem keeps_enterContext (scope : String) :
    Keeps queue (enterContext scope : Attempt (Engine η ω) Unit) := by
  refine (keeps_onStore _).bind fun _ => Keeps.bind (.modify fun _ => rfl) fun _ => ?_
  refine (keeps_onRegistry _).bind fun _ => .get fun e => ?_
  exact ((keeps_storeAll _ _).bind fun _ => .get fun e' => keeps_note _ _ _ e') e

theorem keeps_exitContext (scope : String) :
    Keeps queue (exitContext scope : Attempt (Engine η ω) Unit) := by
  refine .get fun e => ?_
  cases e.entered with
  | nil => rfl
  | cons top rest =>
    have noted : Keeps queue (do note .info "context exited" ((← get).contextFields scope)
        : Attempt (Engine η ω) Unit) := .get fun e => keeps_note _ _ _ e
    dsimp only
    split
    · rfl
    · refine Keeps.bind (keeps_onStore _) (fun _ => Keeps.bind ?_ fun _ => ?_) e
      · exact .modify fun _ => rfl
      · split
        · exact (keeps_onRegistry _).bind fun _ => noted
        · exact noted

/-! ## Conservation -/

variable {host : Host η ω} {e e' : Engine η ω} {r : Report}

/-- What passes found pending and enqueued they have processed, or it is still
    pending. -/
theorem Passes.conserved (outward : host.IsOutward) {rs : List Report}
    (h : Passes host e rs e') :
    e.queue.pending ++ (Report.total rs).enqueued
      = (Report.total rs).processed ++ e'.queue.pending := by
  induction h with
  | rest e => exact List.append_nil _
  | next _ first _ ih =>
    have passed := pass_passed outward first
    rw [passed.queue] at ih
    rw [Report.total_cons, Report.enqueued_append, Report.processed_append, passed.processed,
      List.append_assoc, ih]

/-- An overflow drops what is pending, or nothing. -/
theorem Overflown.conserved (h : Overflown e r e') :
    e.queue.pending = r.dropped ++ e'.queue.pending := by
  have fate := h.fate
  cases policy : e.config.overflow with
  | drop =>
    rw [policy] at fate
    obtain ⟨empty, dropped, -⟩ := fate
    rw [empty, dropped, List.append_nil]
  | defer =>
    rw [policy] at fate
    obtain ⟨same, dropped, -⟩ := fate
    rw [same, dropped, List.nil_append]

/-- The end of passes processes and enqueues nothing more. -/
theorem Ending.conserved {left : Nat} (h : Ending left e r e') :
    r.processed = [] ∧ r.enqueued = [] ∧ e.queue.pending = r.dropped ++ e'.queue.pending := by
  cases h with
  | stopped _ => exact ⟨rfl, rfl, rfl⟩
  | overflown _ _ _ exceeds =>
    have exceeds := overflow_overflown exceeds
    exact ⟨exceeds.processed, exceeds.enqueued, exceeds.conserved⟩

/-- What was pending before a tick, followed by what the tick enqueued, is what
    it processed, then what it dropped, then what is pending after it. Each of
    its passes processed what was pending when it began, so what it enqueued was
    left for later ones. -/
theorem tick_conserved (outward : host.IsOutward) (h : (tick host).on e = (.ok r, e')) :
    e.queue.pending ++ r.enqueued = r.processed ++ r.dropped ++ e'.queue.pending ∧
      ∃ rs last, Passes host { e with draining := true } rs last ∧
        r.processed = rs.flatMap (·.processed) ∧ r.enqueued = rs.flatMap (·.enqueued) ∧
        rs.map (·.processed) = (e.queue.pending :: rs.map (·.enqueued)).take rs.length := by
  obtain ⟨e₁, drained, rfl⟩ := tick_split h
  obtain ⟨rs, last, ended, left, passes, -, -, rfl, ending⟩ := drainAll_split drained
  obtain ⟨nothing, nothing', rest⟩ := ending.conserved
  have relayed := passes.relayed outward
  have processed : (Report.total rs ++ ended).processed = (Report.total rs).processed := by
    rw [Report.processed_append, nothing, List.append_nil]
  have enqueued : (Report.total rs ++ ended).enqueued = (Report.total rs).enqueued := by
    rw [Report.enqueued_append, nothing', List.append_nil]
  have dropped : (Report.total rs ++ ended).dropped = ended.dropped := by
    rw [Report.dropped_append, relayed.dropped, List.nil_append]
  rw [processed, enqueued, dropped]
  refine ⟨?_, rs, last, passes, Report.processed_total rs, Report.enqueued_total rs,
    relayed.relay⟩
  calc e.queue.pending ++ (Report.total rs).enqueued
      = (Report.total rs).processed ++ last.queue.pending := passes.conserved outward
    _ = (Report.total rs).processed ++ (ended.dropped ++ e₁.queue.pending) := by rw [rest]
    _ = _ := (List.append_assoc ..).symm

/-! ## Whole runs -/

/-- A stage conserves events: what was pending before it and what it enqueued it
    has processed or dropped, in this order, or it is pending after it. -/
def Stage.Conserves (s : Stage η ω) : Prop :=
  s.before.queue.pending ++ s.report.enqueued
    = (s.report.processed ++ s.report.dropped) ++ s.after.queue.pending

/-- A move of which there is nothing to report reports nothing. -/
theorem report_of_silent {α : Type} {a : Attempt (Engine η ω) α} {move : Move η}
    (silent : move.run host = Move.silently a) : (Stage.of host move e).report = .empty := by
  simp only [Stage.report, Stage.of, silent, Move.silently, on_bind]
  rcases a.on e with ⟨f | x, e'⟩ <;> rfl

/-- A move that fails must not have touched the queue either. -/
theorem queue_of_keeps {α : Type} {a : Attempt (Engine η ω) α} (h : Keeps queue a)
    {move : Move η} (silent : move.run host = Move.silently a) :
    (Stage.of host move e).after.queue = e.queue := by
  have keeps : Keeps queue (Move.silently a) := h.bind fun _ => .pure _
  rw [← keeps e, ← silent]
  rfl

/-- A move that leaves the queue alone conserves events, whatever comes of it. -/
theorem conserves_of_keeps {α : Type} {a : Attempt (Engine η ω) α} (h : Keeps queue a)
    {move : Move η} (silent : move.run host = Move.silently a) :
    (Stage.of host move e).Conserves := by
  rw [Stage.Conserves, report_of_silent silent, queue_of_keeps h silent]
  exact List.append_nil _

/-- Emitting puts an event at the end of the queue, if one can be made. -/
theorem run_emit_on (id : Document) (payload : List (String × Datum)) (e : Engine η ω) :
    ((Move.emit id payload).run host).on e
      = match Event.make id payload "" none with
        | .ok event => (.ok (.output event), { e with queue := e.queue.push event })
        | .error f => (.error f, e) := by
  simp only [Move.run, emit, on_bind, on_ofExcept]
  cases Event.make id payload "" none <;> rfl

theorem conserves_emit (id : Document) (payload : List (String × Datum)) :
    (Stage.of host (.emit id payload) e).Conserves := by
  simp only [Stage.Conserves, Stage.report, Stage.of, run_emit_on]
  cases Event.make id payload "" none with
  | ok event => rfl
  | error f => exact List.append_nil _

theorem tick_of_isOk (h : (Stage.of host .tick e).outcome.isOk) :
    ∃ r e', (tick host).on e = (.ok r, e') := by
  rcases ht : (tick host).on e with ⟨f | r, e'⟩
  · have failed : (Stage.of host .tick e).outcome = .error f := by
      simp only [Stage.of, Move.run, ht]
    rw [failed] at h
    cases h
  · exact ⟨r, e', rfl⟩

/-- Every move conserves events, a tick if it comes to an end. -/
theorem conserves_of_move (outward : host.IsOutward) (move : Move η) (e : Engine η ω)
    (returned : move.isTick → (Stage.of host move e).outcome.isOk) :
    (Stage.of host move e).Conserves := by
  cases move with
  | load rules scope => exact conserves_of_keeps (keeps_load rules scope) rfl
  | registerRule rule scope => exact conserves_of_keeps (keeps_registerRule rule scope) rfl
  | registerAction action handler =>
    exact conserves_of_keeps (keeps_registerAction action handler) rfl
  | enterContext scope => exact conserves_of_keeps (keeps_enterContext scope) rfl
  | exitContext scope => exact conserves_of_keeps (keeps_exitContext scope) rfl
  | emit id payload => exact conserves_emit id payload
  | tick =>
    obtain ⟨r, e', h⟩ := tick_of_isOk (returned rfl)
    have conserved := (tick_conserved outward h).1
    simp only [Stage.Conserves, Stage.report, Stage.of, Move.run, h]
    exact conserved

/-- Every stage of a story is the one that its move makes. -/
theorem eq_of_mem_story {moves : List (Move η)} {s : Stage η ω}
    (h : s ∈ story host moves e) : s = Stage.of host s.move s.before := by
  induction moves generalizing e with
  | nil => cases h
  | cons move moves ih =>
    rcases List.mem_cons.mp h with rfl | h
    · rfl
    · exact ih h

/-- What was pending before a run and what was enqueued along it was processed
    or dropped along it, in this order, or it is still pending. -/
theorem story_conserves (outward : host.IsOutward) (moves : List (Move η)) (e : Engine η ω)
    (returned : ∀ s ∈ story host moves e, s.move.isTick → s.outcome.isOk) :
    e.queue.pending ++ (story host moves e).flatMap (·.report.enqueued)
      = (story host moves e).flatMap (fun s => s.report.processed ++ s.report.dropped)
        ++ (final host moves e).queue.pending := by
  induction moves generalizing e with
  | nil => exact List.append_nil _
  | cons move moves ih =>
    have first : e.queue.pending ++ (Stage.of host move e).report.enqueued = _ :=
      conserves_of_move outward move e (returned _ (List.mem_cons_self ..))
    have others := ih (Stage.of host move e).after fun s hs =>
      returned s (List.mem_cons_of_mem _ hs)
    rw [story, List.flatMap_cons, List.flatMap_cons, ← List.append_assoc, first,
      List.append_assoc, others, ← List.append_assoc]
    rfl

/-- Along every run from an empty queue in which the ticks come to an end, the
    events that were ever enqueued are, in their order, those that were processed
    or dropped and then those that are still pending. Each tick of it keeps the
    balance by itself, and each pass of a tick processed exactly what was pending
    when the pass began. -/
theorem run_conserves (outward : host.IsOutward) (moves : List (Move η))
    (fresh : e.queue.pending = [])
    (returned : ∀ s ∈ story host moves e, s.move.isTick → s.outcome.isOk) :
    (story host moves e).flatMap (·.report.enqueued)
      = (story host moves e).flatMap (fun s => s.report.processed ++ s.report.dropped)
        ++ (final host moves e).queue.pending ∧
    ∀ s ∈ story host moves e, s.move.isTick →
      s.before.queue.pending.length + s.report.enqueued.length
        = s.report.processed.length + s.report.dropped.length + s.after.queue.pending.length ∧
      s.before.queue.pending ++ s.report.enqueued
        = s.report.processed ++ s.report.dropped ++ s.after.queue.pending ∧
      ∃ rs last, Passes host { s.before with draining := true } rs last ∧
        s.report.processed = rs.flatMap (·.processed) ∧
        s.report.enqueued = rs.flatMap (·.enqueued) ∧
        rs.map (·.processed)
          = (s.before.queue.pending :: rs.map (·.enqueued)).take rs.length := by
  refine ⟨?_, fun s member ticks => ?_⟩
  · have conserved := story_conserves outward moves e returned
    rw [fresh, List.nil_append] at conserved
    exact conserved
  · have ok := returned s member ticks
    have made := eq_of_mem_story member
    cases hm : s.move with
    | tick =>
      rw [hm] at made
      rw [made] at ok ⊢
      obtain ⟨r, e', h⟩ := tick_of_isOk ok
      have reported : (Stage.of host .tick s.before).report = r := by
        simp only [Stage.report, Stage.of, Move.run, h]
        rfl
      have left : (Stage.of host .tick s.before).after = e' := by
        simp only [Stage.of, Move.run, h]
      obtain ⟨conserved, passes⟩ := tick_conserved outward h
      rw [reported, left]
      refine ⟨?_, conserved, passes⟩
      have lengths := congrArg List.length conserved
      simp only [List.length_append] at lengths
      exact lengths
    | _ =>
      rw [hm] at ticks
      cases ticks

namespace Spiral

/-- The engine before anything is pending. -/
def idle : Engine Unit Unit := { engine with queue := .empty }

/-- Two events from outside, each followed by a tick. -/
def twice : List (Move Unit) :=
  [.emit (.str "go") [], .tick, .emit (.str "go") [("speed", .document (.int 3))], .tick]

/-- Of the six events enqueued along the run, each tick processed two and dropped
    one. -/
theorem twice_conserves :
    (story (.ofReaction .silent) twice idle).flatMap (·.report.enqueued)
      = (story (.ofReaction .silent) twice idle).flatMap
          (fun s => s.report.processed ++ s.report.dropped)
        ++ (final (.ofReaction .silent) twice idle).queue.pending ∧
    ((story (.ofReaction .silent) twice idle).map fun s =>
        (s.report.enqueued.length, s.report.processed.length, s.report.dropped.length))
      = [(1, 0, 0), (2, 2, 1), (1, 0, 0), (2, 2, 1)] := by
  have returned : ((story (.ofReaction .silent) twice idle).all fun s => s.outcome.isOk) = true := by
    decide +kernel
  refine ⟨?_, by decide +kernel⟩
  exact (run_conserves (Host.isOutward_ofReaction Reaction.silent) twice rfl fun s member _ =>
    List.all_eq_true.mp returned s member).1

end Spiral

end Engine

end Cascade
