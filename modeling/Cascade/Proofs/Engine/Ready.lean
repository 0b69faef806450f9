-- SUMMARY: Ready engines: all their rules are sound and no checkpoint is open; ticks keep an engine ready, whatever comes of them, and so does every other operation that registers sound rules only.
import Cascade.Proofs.Engine.Beats
import Cascade.Proofs.Engine.Runs
import Cascade.Proofs.Registry.Stations
import Cascade.Proofs.Store.Restoring
import Cascade.Proofs.Rule.Sound

/-! # Ready engines

An engine is ready if its rules are sound and a checkpoint is free for the next
one of them. The handlers never see the engine, so nothing that happens in a
tick changes its rules, and every transaction closes the checkpoint that it
opened, also one that fails. -/

namespace Cascade

open Attempt Layered

namespace Engine

variable {η ω : Type}

/-- All rules of an engine are sound, no checkpoint is open, and a tick is under
    way or not. -/
structure Ready (e : Engine η ω) (draining : Bool) : Prop where
  sound : ∀ scope, ∀ rule ∈ e.registry.rulesOf scope, rule.IsSound
  free : e.store.journal.active = none
  draining : e.draining = draining

variable {d : Bool}

/-- A change of other parts leaves an engine ready. -/
theorem ready_modify {f : Engine η ω → Engine η ω} (registry : ∀ e, (f e).registry = e.registry)
    (store : ∀ e, (f e).store = e.store) (draining : ∀ e, (f e).draining = e.draining) :
    Maintains (·.Ready d) (modify f : Attempt (Engine η ω) PUnit) :=
  .modify fun e h => ⟨registry e ▸ h.sound, store e ▸ h.free, (draining e).trans h.draining⟩

theorem ready_note (level : LogLevel) (message : String) (fields : List (String × Document)) :
    Maintains (·.Ready d) (note level message fields : Attempt (Engine η ω) Unit) :=
  ready_modify (fun _ => rfl) (fun _ => rfl) fun _ => rfl

/-! ## Stores -/

/-- Neither writes nor scopes that are opened or closed open a checkpoint. -/
theorem free_of_moved {db db' : Layered} (h : Moved db db') (free : db.journal.active = none) :
    db'.journal.active = none := by
  cases h with
  | writes steps =>
    rw [journal_of_writes (written_of_stored steps) free]
    exact free
  | pushed name => exact free
  | popped hp =>
    obtain ⟨-, -, -, -, journal⟩ := of_popped? hp
    rw [journal]
    exact free

theorem free_of_writing {α : Type} {a : Attempt Layered α} (writing : Writing a) {db : Layered}
    (free : db.journal.active = none) : (a.on db).2.journal.active = none :=
  free_of_moved (.writes (writing.stores db)) free

/-- A transaction closes its checkpoint, whatever comes of it. -/
theorem free_transaction {α : Type} {a : Attempt Layered α} (writing : Writing a) {db : Layered}
    (free : db.journal.active = none) : ((transaction a).on db).2.journal.active = none := by
  rw [journal_transaction writing]
  exact free

theorem ready_onStore {α : Type} {a : Attempt Layered α}
    (h : ∀ db, db.journal.active = none → (a.on db).2.journal.active = none) :
    Maintains (·.Ready d) (onStore a : Attempt (Engine η ω) α) :=
  .of_holds fun e ready => ⟨ready.sound, h e.store ready.free, ready.draining⟩

/-! ## Ticks -/

variable (react : Reaction η ω) (event : Event)

/-- A beat changes no rule, and its transaction closes its checkpoint. -/
theorem Beat.ready {react : Reaction η ω} {rules : Rule → Prop} {e e' : Engine η ω}
    (beat : Beat (.ofReaction react) rules e e') (ready : e.Ready d) : e'.Ready d := by
  cases beat with
  | told => exact ⟨ready.sound, ready.free, ready.draining⟩
  | @ruled event rule =>
    have writing := writing_applyAll event.blind_lookup e.config.layer rule.modifications
    exact ⟨ready.sound, free_transaction writing ready.free, ready.draining⟩
  | called => exact ⟨ready.sound, ready.free, ready.draining⟩

theorem ready_applyRule (rule : Rule) :
    Maintains (·.Ready d) (applyRule (.ofReaction react) event rule) := by
  have beats : Takes (Beat (.ofReaction react) fun _ => True)
      (applyRule (.ofReaction react) event rule) := beats_applyRule _ event trivial
  exact beats.mono fun _ _ beat => beat.ready

theorem ready_process : Maintains (·.Ready d) (process (.ofReaction react) event) :=
  (beats_process (.ofReaction react) event).mono fun _ _ beat => beat.ready

theorem ready_processAll (batch : List Event) :
    Maintains (·.Ready d) (processAll (.ofReaction react) batch) :=
  takes_processAll (ready_process react) batch

theorem ready_drainAll : Maintains (·.Ready d) (drainAll (Host.ofReaction react)) :=
  (beats_drainAll (.ofReaction react)).mono fun _ _ beat => beat.ready

/-- A tick leaves a ready engine ready and not draining, whatever comes of it. -/
theorem ready_tick : Maintains (·.Ready false) (tick (Host.ofReaction react)) := by
  refine .of_holds fun e ready => ?_
  have idle : ¬e.draining = true := by simp [ready.draining]
  have left := (ready_drainAll (d := true) react).holds (s := { e with draining := true })
    ⟨ready.sound, ready.free, rfl⟩
  rw [tick_on, if_neg idle]
  exact ⟨left.sound, left.free, rfl⟩

/-! ## Runs -/

theorem ready_storeAll (facts : List (String × Fact)) (layer : LayerName) :
    Maintains (·.Ready d) (storeAll facts layer : Attempt (Engine η ω) Unit) := by
  refine ready_onStore fun db free => free_of_writing ?_ free
  induction facts with
  | nil => exact .pure _
  | cons item rest ih => exact (Writing.store _ _ _).seq fun _ => ih

/-- Registering sound rules leaves the rules of a registry sound. -/
theorem sound_registerBatch {r : Registry} {batch : List Rule} (scope : String)
    (policy : DuplicatePolicy) (old : ∀ scope, ∀ rule ∈ r.rulesOf scope, rule.IsSound)
    (new : ∀ rule ∈ batch, rule.IsSound) :
    Yields (r.registerBatch batch scope policy) fun p =>
      ∀ scope, ∀ rule ∈ p.2.rulesOf scope, rule.IsSound := by
  have resolved : Yields (Registry.resolve policy scope batch) fun rules =>
      ∀ rule ∈ rules, rule.IsSound := by
    refine Yields.mapM fun (rule, i) mem => ?_
    have sound := new rule (List.fst_mem_of_mem_zipIdx mem)
    dsimp only
    split
    · exact .ok sound
    · cases policy with
      | error => exact .error _
      | suffix => exact .ok ⟨sound.condition, sound.modifications, sound.outputs, sound.priority⟩
  refine resolved.bind fun rules sound => Yields.seq fun _ => .ok ?_
  exact Registry.forall_put scope old (List.forall_mem_append.mpr ⟨old scope, sound⟩)

/-- Registering another scope, or none, leaves the rules of a registry sound. -/
theorem sound_activate {r : Registry} (scope : String)
    (old : ∀ scope, ∀ rule ∈ r.rulesOf scope, rule.IsSound) :
    ∀ other, ∀ rule ∈ (r.activate scope).rulesOf other, rule.IsSound := by
  have same : ∀ rule ∈ r.rulesOf scope ++ [], rule.IsSound := by
    rw [List.append_nil]
    exact old scope
  have put := Registry.forall_put scope old same
  unfold Registry.activate
  split
  · exact old
  · dsimp only
    split
    · exact put
    · exact put

theorem ready_load {rules : RuleSet} (sound : ∀ rule ∈ rules.rules, rule.IsSound)
    (scope : String) :
    Maintains (·.Ready d) (load rules scope : Attempt (Engine η ω) (List String)) := by
  refine (takes_load rules scope).mono fun e e' step ready => ?_
  cases step with
  | registered hr =>
    exact ⟨sound_registerBatch scope _ ready.sound sound _ hr, ready.free, ready.draining⟩
  | stored facts layer => exact (ready_storeAll facts layer).holds ready
  | noted => exact ⟨ready.sound, ready.free, ready.draining⟩

theorem ready_onRegistry {f : Registry → Registry}
    (h : ∀ r : Registry, (∀ scope, ∀ rule ∈ r.rulesOf scope, rule.IsSound) →
      ∀ scope, ∀ rule ∈ (f r).rulesOf scope, rule.IsSound) :
    Maintains (·.Ready d) (onRegistry f : Attempt (Engine η ω) Unit) :=
  .modify fun e ready => ⟨h e.registry ready.sound, ready.free, ready.draining⟩

theorem ready_enterContext (scope : String) :
    Maintains (·.Ready d) (enterContext scope : Attempt (Engine η ω) Unit) := by
  have pushed : Maintains (·.Ready d)
      (onStore (pushScope (.text scope)) : Attempt (Engine η ω) Unit) :=
    ready_onStore fun db => free_of_moved (moved_pushScope _ db)
  refine pushed.bind fun _ _ => Takes.bind ?_ fun _ _ => ?_
  · exact ready_modify (fun _ => rfl) (fun _ => rfl) fun _ => rfl
  refine (ready_onRegistry fun r sound => sound_activate scope sound).bind fun _ _ => ?_
  refine Takes.get fun e => Takes.bind (ready_storeAll _ _) (fun _ _ => ?_) e
  exact Takes.get fun e => ready_note _ _ _ e

theorem ready_exitContext (scope : String) :
    Maintains (·.Ready d) (exitContext scope : Attempt (Engine η ω) Unit) := by
  have popped : Maintains (·.Ready d)
      (onStore (popScope (.text scope)) : Attempt (Engine η ω) Facts) :=
    ready_onStore fun db => free_of_moved (moved_popScope _ db)
  have noted : Maintains (·.Ready d) (do note .info "context exited" ((← get).contextFields scope)
      : Attempt (Engine η ω) Unit) := Takes.get fun e => ready_note _ _ _ e
  refine Takes.get fun e => ?_
  cases e.entered with
  | nil => exact .refl
  | cons top rest =>
    dsimp only
    split
    · exact .refl
    · refine Takes.bind popped (fun _ _ => ?_) e
      refine Takes.bind (ready_modify (fun _ => rfl) (fun _ => rfl) fun _ => rfl) fun _ _ => ?_
      split
      · have deactivated := ready_onRegistry (η := η) (ω := ω) (d := d)
          (f := (·.deactivate scope)) fun r sound => sound
        exact deactivated.bind fun _ _ => noted
      · exact noted

/-- A move that registers rules, if any, from a document only. -/
def Move.IsRead : Move η → Prop
  | .load rules _ => ∃ d, RuleSet.ofDocument d = .ok rules
  | .registerRule _ _ => False
  | _ => True

/-- Such a move leaves a ready engine ready, whatever comes of it. -/
theorem ready_move {move : Move η} (read : move.IsRead) :
    Maintains (·.Ready false) (move.run (Host.ofReaction react)) := by
  cases move with
  | load rules scope =>
    obtain ⟨d, hd⟩ := read
    exact (ready_load (RuleSet.sound_ofDocument d _ hd) scope).bind fun _ _ => .pure _
  | registerRule rule scope => exact read.elim
  | registerAction action handler =>
    refine Takes.bind (Takes.get fun e => ?_) fun _ _ => .pure _
    cases hd : e.dispatcher.register action handler with
    | error f => exact .refl
    | ok dispatcher =>
      rw [bind_of_ok (on_ofExcept _ _)]
      exact .single fun ready => ⟨ready.sound, ready.free, ready.draining⟩
  | enterContext scope => exact (ready_enterContext scope).bind fun _ _ => .pure _
  | exitContext scope => exact (ready_exitContext scope).bind fun _ _ => .pure _
  | emit id payload =>
    refine Takes.bind ((Takes.ofExcept _).bind fun event _ => ?_) fun _ _ => .pure _
    exact Takes.bind (ready_modify (fun _ => rfl) (fun _ => rfl) fun _ => rfl) fun _ _ => .pure _
  | tick => exact ready_tick react

/-- Along a run from a fresh engine every engine is ready. -/
theorem ready_story {moves : List (Move η)} (read : ∀ m ∈ moves, m.IsRead) {e : Engine η ω}
    (ready : e.Ready false) : ∀ s ∈ story (.ofReaction react) moves e, s.before.Ready false := by
  induction moves generalizing e with
  | nil =>
    intro s hs
    cases hs
  | cons move moves ih =>
    obtain ⟨first, others⟩ := List.forall_mem_cons.mp read
    exact List.forall_mem_cons.mpr ⟨ready, ih others ((ready_move react first).holds ready)⟩

theorem ready_ofConfig (config : Config) (sink : Sink) (state : ω) :
    (ofConfig config sink state : Engine η ω).Ready false where
  sound scope rule mem := by
    change rule ∈ Registry.empty.rulesOf scope at mem
    rw [Registry.rulesOf_empty] at mem
    cases mem
  free := rfl
  draining := rfl

end Engine

end Cascade
