-- SUMMARY: How ticks end: a tick returns its report exactly if none of its turns breaks, and a turn breaks only where an integer is too large for a float, a handler raises a fault that cannot be worded, or an event that follows a change has no name.
import Cascade.Proofs.Engine.Copying
import Cascade.Proofs.Engine.Tallies

/-! # How ticks end

Most of what can go wrong in a turn becomes an issue and the tick goes on. Three
things do not: an integer that is too large for a float, a fault of a handler that
cannot be worded, and the empty name of an event that follows a change of a fact.
A turn in which one of them comes up **breaks**, and the tick with it. Where the
rules were read from documents nothing else can break a tick: it returns exactly if
none of its turns breaks, and then every event in it was processed and every failure
is told. How long conditions and values may be and how deeply they may nest is not
limited here. -/

namespace Cascade

open Attempt

namespace Engine

variable {η ω : Type} {react : Reaction η ω} {e e' : Engine η ω}

/-! ## Turns that break -/

namespace Turn

def holds (t : Turn η ω) : Except Fault Bool :=
  t.rule.condition.check (t.event.lookup t.before.store)

/-- What the modifications of the rule make of a copy of the facts. -/
def modified (t : Turn η ω) : Except Fault (List Document × Layered) :=
  World.modified t.event.lookup t.before.config.layer t.rule.modifications t.before.store

/-- The world of the engine before a turn. -/
def world (t : Turn η ω) : World ω :=
  ⟨t.before.store, t.before.queue.pending, [], [], [], t.before.host⟩

/-- What the actions of the rule make of the world, called with the facts of a
    copy. The fault that comes of wording a fault of a handler ends them. -/
def acted (react : Reaction η ω) (t : Turn η ω) (copy : Layered) : Except Fault (World ω) :=
  World.acted react t.before.dispatcher t.event t.rule { t.world with store := copy }

inductive Breaks (react : Reaction η ω) (t : Turn η ω) : Fault → Prop
  | condition : t.holds = .error .tooLarge → t.Breaks react .tooLarge
  | modifications : t.holds = .ok true → t.modified = .error .tooLarge → t.Breaks react .tooLarge
  | handler {outputs : List Document} {copy : Layered} {f : Fault} :
      t.holds = .ok true → t.modified = .ok (outputs, copy) → t.acted react copy = .error f →
      t.Breaks react f
  | output {outputs : List Document} {copy : Layered} {w : World ω} :
      t.holds = .ok true → t.modified = .ok (outputs, copy) → t.acted react copy = .ok w →
      .str "" ∈ outputs → t.Breaks react (.badArgument .event)

/-- The issues of a turn: a failure of the condition or of a modification, or the
    failures of the handlers that the rule calls. -/
def issues (react : Reaction η ω) (t : Turn η ω) : List Issue :=
  match t.holds with
  | .error f => [blame f t.rule t.event]
  | .ok false => []
  | .ok true =>
    match t.modified with
    | .error f => [blame f t.rule t.event]
    | .ok (_, copy) => ((t.acted react copy).toOption.map (·.issues)).getD []

end Turn

/-! ## Sound rules -/

theorem answers_lookup (event : Event) : event.lookup.Answers := by
  intro db k hk
  unfold Event.lookup
  split
  · exact ⟨_, Modification.read_name db hk⟩
  · cases k with
    | name s =>
      unfold Event.consult
      dsimp only
      cases event.fact? s with
      | none => exact ⟨_, rfl⟩
      | some f => exact ⟨some f, rfl⟩
    | other d => cases hk

theorem computed_modified {look : Lookup} (answers : look.Answers) (layer : LayerName)
    {ms : List Modification} (h : ∀ m ∈ ms, m.IsNamed) (db : Layered) :
    Computed (World.modified look layer ms db) := by
  induction ms generalizing db with
  | nil => exact .ok _
  | cons m ms ih =>
    obtain ⟨hm, hms⟩ := List.forall_mem_cons.mp h
    have first := Modification.computes_apply answers hm layer db
    unfold World.modified
    rcases ha : (m.apply look (.named layer)).on db with ⟨f | changed, copy⟩
    · rw [ha] at first
      exact .error (first f rfl)
    · exact (ih hms copy).seq fun _ => .ok _

/-- The events that follow modifications over names are texts. -/
theorem texts_modified {look : Lookup} {layer : LayerName} {ms : List Modification}
    (h : ∀ m ∈ ms, m.IsNamed) (db : Layered) :
    Yields (World.modified look layer ms db) fun p => ∀ o ∈ p.1, ∃ s, o = .str s := by
  induction ms generalizing db with
  | nil =>
    refine .ok fun o ho => ?_
    cases ho
  | cons m ms ih =>
    obtain ⟨hm, hms⟩ := List.forall_mem_cons.mp h
    unfold World.modified
    rcases (m.apply look (.named layer)).on db with ⟨f | changed, copy⟩
    · exact .error f
    · refine (ih hms copy).bind fun p texts => ?_
      obtain ⟨later, copy⟩ := p
      refine .ok fun o ho => ?_
      rcases List.mem_append.mp ho with now | then'
      · exact hm.effect.followers o (Modification.mem_followers now)
      · exact texts o then'

theorem make_text (s : String) (root : String) (cause : Option String) :
    Event.make (.str s) [] root cause
      = if s = "" then .error (.badArgument .event)
        else .ok ⟨s, ∅, if root = "" then s else root, cause⟩ := by
  unfold Event.make
  by_cases empty : s = ""
  · rw [if_pos empty]
    subst empty
    rfl
  · rw [if_neg empty]
    simp only [if_neg empty]
    rfl

/-- Letting a sound rule fire on a copy of the facts can only fail in its calls, or
    for an event without a name among those that follow a change. -/
theorem fired_fails {dispatcher : Dispatcher η} {event : Event} {rule : Rule}
    {outputs : List Document} {w : World ω} {f : Fault} (sound : rule.IsSound)
    (texts : ∀ o ∈ outputs, ∃ s, o = .str s)
    (h : World.fired react dispatcher event rule outputs w = .error f) :
    World.acted react dispatcher event rule w = .error f ∨
      (∃ after, World.acted react dispatcher event rule w = .ok after) ∧
        f = .badArgument .event ∧ .str "" ∈ outputs := by
  obtain failed | ⟨after, acted, h⟩ := or_of_bind_error h
  · exact .inl failed
  obtain failed | ⟨events, -, h⟩ := or_of_bind_error h
  · refine .inr ⟨⟨after, acted⟩, ?_⟩
    obtain ⟨id, mem, hf⟩ := exists_of_mapM_error failed
    rcases List.mem_append.mp mem with mem | mem
    · obtain ⟨s, rfl⟩ := texts id mem
      rw [make_text] at hf
      split at hf
      · rename_i empty
        cases hf
        exact ⟨rfl, empty ▸ mem⟩
      · cases hf
    · obtain ⟨s, hs, rfl⟩ := List.mem_map.mp mem
      rw [make_text, if_neg (sound.outputs s hs)] at hf
      cases hf
  · cases h

/-- A rule that fires has put out events with names only, and its issues are
    those of its calls. -/
theorem fired_returns {dispatcher : Dispatcher η} {event : Event} {rule : Rule}
    {outputs : List Document} {w w' : World ω}
    (h : World.fired react dispatcher event rule outputs w = .ok w') :
    ∃ after, World.acted react dispatcher event rule w = .ok after ∧ .str "" ∉ outputs ∧
      w'.issues = after.issues := by
  obtain ⟨after, acted, h⟩ := exists_of_bind_ok h
  obtain ⟨events, made, h⟩ := exists_of_bind_ok h
  cases h
  refine ⟨after, acted, fun mem => ?_, rfl⟩
  obtain ⟨out, made⟩ := forall_of_mapM_ok made _ (List.mem_append_left _ mem)
  rw [make_text, if_pos rfl] at made
  cases made

/-! ## What comes of a turn -/

namespace Turn

variable {t : Turn η ω}

theorem not_breaks (small : t.holds ≠ .error .tooLarge)
    (fine : t.holds = .ok true → t.modified ≠ .error .tooLarge ∧
      ∀ p, t.modified = .ok p → (∃ w, t.acted react p.2 = .ok w) ∧ .str "" ∉ p.1) :
    ∀ f, ¬t.Breaks react f := by
  rintro f (large | ⟨holds, large⟩ | ⟨holds, modified, failed⟩ | ⟨holds, modified, -, nameless⟩)
  · exact small large
  · exact (fine holds).1 large
  · obtain ⟨⟨w, acted⟩, -⟩ := (fine holds).2 _ modified
    rw [acted] at failed
    cases failed
  · exact ((fine holds).2 _ modified).2 nameless

/-- What the rule of a turn does in the world of the engine. -/
def reference (react : Reaction η ω) (t : Turn η ω) : Except Fault (World ω × Bool) :=
  t.world.applied react t.before.dispatcher t.before.config.layer t.event t.rule

theorem reference_eq (react : Reaction η ω) (t : Turn η ω) :
    t.reference react = match t.holds with
      | .error f => t.world.recovered f t.rule t.event
      | .ok false => .ok (t.world, false)
      | .ok true =>
        match t.modified with
        | .error f => t.world.recovered f t.rule t.event
        | .ok (outputs, copy) => do
          let after ← World.fired react t.before.dispatcher t.event t.rule outputs
            { t.world with store := copy }
          return (after, t.rule.consumes) := rfl

/-- An outcome is what a turn settles with: the fault that breaks it, or a result
    that tells its issues, and then nothing breaks it. -/
structure Settles {β : Type} (react : Reaction η ω) (told : β → List Issue) (t : Turn η ω)
    (x : Except Fault β) : Prop where
  fails : ∀ f, x = .error f → t.Breaks react f
  returns : ∀ b, x = .ok b → (∀ f, ¬t.Breaks react f) ∧ told b = t.issues react

namespace Settles

variable {β : Type} {told : β → List Issue}

theorem error {f : Fault} (h : t.Breaks react f) : Settles react told t (.error f) where
  fails g hg := by
    cases hg
    exact h
  returns b hb := by cases hb

theorem ok {b : β} (unbroken : ∀ f, ¬t.Breaks react f) (same : told b = t.issues react) :
    Settles react told t (.ok b) where
  fails f hf := by cases hf
  returns b' hb := by
    cases hb
    exact ⟨unbroken, same⟩

end Settles

/-- A fault that is computed is told as an issue, unless an integer was too large
    for a float. -/
theorem recovered_settles {f : Fault} (computation : f.isEvaluation = true ∨ f = .tooLarge)
    (breaks : f = .tooLarge → t.Breaks react f)
    (unbroken : f ≠ .tooLarge → ∀ g, ¬t.Breaks react g)
    (told : t.issues react = [blame f t.rule t.event]) :
    t.Settles react (·.1.issues) (t.world.recovered f t.rule t.event) := by
  unfold World.recovered
  obtain evaluation | rfl := computation
  · rw [if_pos evaluation]
    refine .ok (unbroken ?_) told.symm
    rintro rfl
    cases evaluation
  · exact .error (breaks rfl)

/-- In the world of the engine a sound rule settles its turn. -/
theorem reference_settles (react : Reaction η ω) (sound : t.rule.IsSound) :
    t.Settles react (·.1.issues) (t.reference react) := by
  have checked : Computed t.holds :=
    Condition.computed_check (answers_lookup t.event t.before.store) _ sound.condition
  have computed : Computed t.modified :=
    computed_modified (answers_lookup t.event) t.before.config.layer sound.modifications _
  have texts : Yields t.modified fun p => ∀ o ∈ p.1, ∃ s, o = .str s :=
    texts_modified sound.modifications _
  rw [reference_eq]
  cases hh : t.holds with
  | error f =>
    refine recovered_settles (checked.cases hh) ?_ ?_ (by rw [issues, hh])
    · rintro rfl
      exact .condition hh
    · intro small
      exact not_breaks (by simp [hh, small]) (by simp [hh])
  | ok truth =>
    cases truth with
    | false => exact .ok (not_breaks (by simp [hh]) (by simp [hh])) (by rw [issues, hh]; rfl)
    | true =>
      cases hm : t.modified with
      | error f =>
        refine recovered_settles (computed.cases hm) ?_ ?_ (by rw [issues, hh, hm])
        · rintro rfl
          exact .modifications hh hm
        · intro small
          exact not_breaks (by simp [hh]) (by simp [hm, small])
      | ok p =>
        obtain ⟨outputs, copy⟩ := p
        dsimp only
        cases hf : World.fired react t.before.dispatcher t.event t.rule outputs
            { t.world with store := copy } with
        | error f =>
          obtain failed | ⟨⟨after, acted⟩, rfl, nameless⟩ := fired_fails sound (texts _ hm) hf
          · exact .error (.handler hh hm failed)
          · exact .error (.output hh hm acted nameless)
        | ok w =>
          obtain ⟨after, done, named, told⟩ := fired_returns hf
          have acted : t.acted react copy = .ok after := done
          refine .ok (not_breaks (by simp [hh]) (by simp [hm, named, acted])) ?_
          simp only [issues, hh, hm, acted]
          exact told

/-- In a ready engine a sound rule settles its turn. -/
theorem settles (react : Reaction η ω) {d : Bool} (ready : t.before.Ready d)
    (sound : t.rule.IsSound) :
    t.Settles react (·.report.issues) (t.result (.ofReaction react)) := by
  have held : Holds t.before t.world := ⟨rfl, rfl, rfl⟩
  have agrees : Agrees _ _ (t.reference react) _ :=
    applyRule_follows react t.event t.rule held fun _ => ready.free
  obtain ⟨fails, returns⟩ := reference_settles react sound
  cases hr : t.reference react with
  | error f =>
    rw [hr] at agrees
    have failed : t.result (.ofReaction react) = .error f := agrees
    rw [failed]
    exact .error (fails f hr)
  | ok p =>
    rw [hr] at agrees
    obtain ⟨outcome, e', applied, -, -, follows⟩ := agrees
    have returned : t.result (.ofReaction react) = .ok outcome := congrArg Prod.fst applied
    obtain ⟨unbroken, issues⟩ := returns p hr
    rw [returned]
    exact .ok unbroken (follows.issues.symm.trans issues)

/-- No issue of a turn tells of an overflow. -/
theorem shallow {host : Host η ω} {outcome : Outcome} (outward : host.IsOutward)
    (h : t.result host = .ok outcome) :
    ∀ i ∈ outcome.report.issues, i.kind ≠ .cascadeDepthExceeded := by
  have applied : (applyRule host t.event t.rule).on t.before = (.ok outcome, _) := Prod.ext h rfl
  have trail := (applyRule_trail applied).mono fun _ _ _ act =>
    (⟨t.rule, List.mem_singleton_self _, act⟩ : ∃ rule ∈ [t.rule], Act host t.event rule _ _ _)
  exact (trail.accounts outward).shallow

end Turn

/-! ## What comes of a tick -/

/-- Where an outcome tallies with turns, the fault of it breaks one of them, or none
    of them breaks and their issues are told. -/
theorem Tallies.settles {ts : List (Turn η ω)} {x : Except Fault Report}
    (tallies : Tallies (.ofReaction react) ts x) :
    (∀ f, x = .error f → ∃ t ∈ ts, t.Breaks react f) ∧
    ∀ r, x = .ok r → (∀ t ∈ ts, ∀ f, ¬t.Breaks react f) ∧
      r.issues.filter (·.kind ≠ .cascadeDepthExceeded) = ts.flatMap (·.issues react) := by
  have settled {t : Turn η ω} (mem : t ∈ ts) :=
    Turn.settles react (tallies.ready t mem).1 (tallies.ready t mem).2
  refine ⟨fun f hf => ?_, fun r hr => ?_⟩
  · obtain ⟨t, mem, failed⟩ := tallies.fails f hf
    exact ⟨t, mem, (settled mem).fails f failed⟩
  · obtain ⟨ended, deeds⟩ := tallies.returns r hr
    have told : ∀ t ∈ ts, (∀ f, ¬t.Breaks react f) ∧
        (t.report (.ofReaction react)).issues = t.issues react ∧
        ∀ i ∈ t.issues react, i.kind ≠ .cascadeDepthExceeded := by
      intro t mem
      obtain ⟨outcome, returned⟩ := ended t mem
      obtain ⟨unbroken, issues⟩ := (settled mem).returns outcome returned
      have report : t.report (.ofReaction react) = outcome.report := by
        rw [Turn.report, returned]
        rfl
      rw [report, ← issues]
      exact ⟨unbroken, rfl, Turn.shallow (Host.isOutward_ofReaction react) returned⟩
    have added : (Report.total (ts.map (·.report (.ofReaction react)))).issues
        = ts.flatMap (·.issues react) := by
      rw [Report.issues_total, List.flatMap_map]
      exact List.flatMap_congr fun t mem => (told t mem).2.1
    refine ⟨fun t mem => (told t mem).1, ?_⟩
    calc r.issues.filter (·.kind ≠ .cascadeDepthExceeded)
        = r.deeds.issues := rfl
      _ = (ts.flatMap (·.issues react)).filter (·.kind ≠ .cascadeDepthExceeded) := by
          rw [deeds, ← added]
          rfl
      _ = ts.flatMap (·.issues react) := by
          refine List.filter_eq_self.mpr fun i hi => ?_
          obtain ⟨t, mem, hi⟩ := List.mem_flatMap.mp hi
          simpa using (told t mem).2.2 i hi

/-- A tick begins with processing what was pending, in order. -/
theorem tick_processes {host : Host η ω} {r : Report} (outward : host.IsOutward)
    (h : (tick host).on e = (.ok r, e')) : e.queue.pending <+: r.processed := by
  obtain ⟨e₁, drained, rfl⟩ := tick_split h
  obtain ⟨rs, last, ended, left, passes, begun, -, rfl, -⟩ := drainAll_split drained
  rw [Report.processed_append, Report.processed_total]
  cases passes with
  | rest =>
    have empty : e.queue.pending = [] := begun.mp rfl
    rw [empty]
    exact List.nil_prefix
  | next _ first _ =>
    have first : _ = e.queue.pending := (pass_passed outward first).processed
    rw [List.flatMap_cons, first, List.append_assoc]
    exact List.prefix_append _ _

/-- Along every run in which rules are read from documents only, whatever was
    emitted and whatever the handlers do, a tick fails only by a fault that breaks
    one of its turns. A tick in which no turn breaks returns its report: its
    issues, apart from an overflow, are those of its turns, and it has processed
    everything that was pending and, pass by pass, what came of it. How long conditions
    and values may be and how deeply they may nest is not limited here. -/
theorem run_settles (react : Reaction η ω) (config : Config) (sink : Sink) (state : ω)
    {moves : List (Move η)} (read : ∀ m ∈ moves, m.IsRead) :
    ∀ s ∈ story (.ofReaction react) moves (ofConfig config sink state), s.move.isTick →
      (∀ f, s.outcome = .error f → ∃ t ∈ turns (.ofReaction react) s.before, t.Breaks react f) ∧
      ∀ r, s.outcome = .ok r →
        (∀ t ∈ turns (.ofReaction react) s.before, ∀ f, ¬t.Breaks react f) ∧
        r.issues.filter (·.kind ≠ .cascadeDepthExceeded)
          = (turns (.ofReaction react) s.before).flatMap (·.issues react) ∧
        s.before.queue.pending <+: r.processed ∧
        ∃ rs last, Passes (.ofReaction react) { s.before with draining := true } rs last ∧
          r.processed = rs.flatMap (·.processed) ∧
          rs.map (·.processed)
            = (s.before.queue.pending :: rs.map (·.enqueued)).take rs.length := by
  intro s mem ticks
  have ready := ready_story react read (ready_ofConfig config sink state) s mem
  have made := eq_of_mem_story mem
  obtain ⟨fails, returns⟩ := (tallies_tick react ready).settles
  cases hm : s.move with
  | tick =>
    have outcome : s.outcome = ((tick (.ofReaction react)).on s.before).1 := by
      rw [hm] at made
      exact congrArg Stage.outcome made
    rw [outcome]
    refine ⟨fails, fun r hr => ?_⟩
    obtain ⟨unbroken, issues⟩ := returns r hr
    have outward := Host.isOutward_ofReaction react
    have returned : (tick (.ofReaction react)).on s.before = (.ok r, _) := Prod.ext hr rfl
    obtain ⟨-, rs, last, passes, processed, -, relay⟩ := tick_conserved outward returned
    exact ⟨unbroken, issues, tick_processes outward returned, rs, last, passes, processed, relay⟩
  | _ =>
    rw [hm] at ticks
    cases ticks

namespace Doorway

/-- A rule for each of two events. The first one opens a door, and an event without
    a name is to follow; the second one treats a number as a switch. -/
def opening : Document :=
  .dict
    [ ("facts", .dict [("door", .str "shut"), ("chimes", .int 3)]),
      ("rules", .list
        [ .dict
            [ ("id", .str "knock"), ("event", .str "knock"),
              ("modifications", .list
                [.dict
                  [ ("op", .str "set_if_changed"), ("key", .str "door"), ("value", .str "open"),
                    ("outputs_on_change", .list [.str ""]) ]]) ],
          .dict
            [ ("id", .str "chime"), ("event", .str "chime"),
              ("modifications", .list
                [.dict [("op", .str "toggle"), ("key", .str "chimes")]]) ] ]) ]

/-- Some events from outside, and a tick. -/
def visit (events : List String) (rules : RuleSet) : List (Move Unit) :=
  .load rules "global" :: events.map (fun id => .emit (.str id) []) ++ [.tick]

def visited (events : List String) (rules : RuleSet) : List (Stage Unit Unit) :=
  story (.ofReaction .silent) (visit events rules) (ofConfig .default (.collecting []) ())

theorem visit_read {rules : RuleSet} (h : RuleSet.ofDocument opening = .ok rules)
    (events : List String) : ∀ m ∈ visit events rules, m.IsRead := by
  refine List.forall_mem_cons.mpr ⟨⟨opening, h⟩, List.forall_mem_append.mpr ⟨?_, ?_⟩⟩
  · intro m mem
    obtain ⟨id, -, rfl⟩ := List.mem_map.mp mem
    exact True.intro
  · exact List.forall_mem_singleton.mpr True.intro

/-- The document is read, its rules are loaded and both events are emitted, but the
    tick fails at the event without a name that follows the first one. The second
    one is neither processed nor pending any more. -/
theorem knock_breaks :
    ∃ rules, RuleSet.ofDocument opening = .ok rules ∧
      (∀ s ∈ visited ["knock", "chime"] rules, ¬s.move.isTick → s.outcome.isOk) ∧
      ∃ s ∈ visited ["knock", "chime"] rules, s.move.isTick ∧
        s.before.queue.ids = ["knock", "chime"] ∧
        (s.outcome.map fun _ => ()).mapError Fault.message
          = .error "Event id must be a non-empty string" ∧
        s.after.queue.ids = [] ∧
        s.after.store.visible? (.name "door") = some (.string "open") := by
  have seen : (RuleSet.ofDocument opening).toOption.map (fun rules => decide (
      (∀ s ∈ visited ["knock", "chime"] rules, ¬s.move.isTick → s.outcome.isOk) ∧
      ∃ s ∈ visited ["knock", "chime"] rules, s.move.isTick ∧
        s.before.queue.ids = ["knock", "chime"] ∧
        (s.outcome.map fun _ => ()).mapError Fault.message
          = .error "Event id must be a non-empty string" ∧
        s.after.queue.ids = [] ∧
        s.after.store.visible? (.name "door") = some (.string "open"))) = some true := by
    decide +kernel
  obtain ⟨rules, read, holds⟩ := exists_of_map_toOption seen
  exact ⟨rules, read, of_decide_eq_true holds⟩

/-- One of the turns of that tick breaks. Without the first event no turn breaks,
    and the tick tells that the second rule failed. -/
theorem visits_settle :
    ∃ rules, RuleSet.ofDocument opening = .ok rules ∧
      (∃ s ∈ visited ["knock", "chime"] rules, ∃ f, s.outcome = .error f ∧
        ∃ t ∈ turns (.ofReaction .silent) s.before, t.Breaks Reaction.silent f) ∧
      ∃ s ∈ visited ["chime"] rules, ∃ r, s.outcome = .ok r ∧
        (∀ t ∈ turns (.ofReaction .silent) s.before, ∀ f, ¬t.Breaks Reaction.silent f) ∧
        (turns (.ofReaction .silent) s.before).flatMap (·.issues Reaction.silent)
          = r.issues.filter (·.kind ≠ .cascadeDepthExceeded) ∧
        s.before.queue.pending <+: r.processed ∧
        s.before.queue.ids = ["chime"] ∧ r.issues.length = 1 := by
  have seen : (RuleSet.ofDocument opening).toOption.map (fun rules => decide (
      (∃ s ∈ visited ["knock", "chime"] rules, s.move.isTick ∧ s.outcome.toOption.isNone) ∧
      ∃ s ∈ visited ["chime"] rules, s.move.isTick ∧
        s.outcome.toOption.map (·.issues.length) = some 1 ∧
        s.before.queue.ids = ["chime"])) = some true := by
    decide +kernel
  obtain ⟨rules, read, holds⟩ := exists_of_map_toOption seen
  obtain ⟨⟨s, mem, ticks, failed⟩, s', mem', ticks', counts, ids⟩ := of_decide_eq_true holds
  obtain ⟨r, returned, one⟩ := exists_of_map_toOption counts
  obtain ⟨fails, -⟩ :=
    run_settles Reaction.silent .default (.collecting []) () (visit_read read _) s mem ticks
  obtain ⟨-, returns⟩ :=
    run_settles Reaction.silent .default (.collecting []) () (visit_read read _) s' mem' ticks'
  obtain ⟨unbroken, issues, processed, -⟩ := returns r returned
  refine ⟨rules, read, ⟨s, mem, ?_⟩, s', mem', r, returned, unbroken, issues.symm, processed, ids,
    one⟩
  cases hs : s.outcome with
  | error f => exact ⟨f, rfl, fails f hs⟩
  | ok r =>
    rw [hs] at failed
    cases failed

end Doorway

end Engine

end Cascade
