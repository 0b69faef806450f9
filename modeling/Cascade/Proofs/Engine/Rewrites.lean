-- SUMMARY: What a modification says about a change is exact, what it writes is confined to one key of one map, and so a rule puts out what follows a change exactly where it made one.
import Cascade.Proofs.Engine.Trials
import Cascade.Proofs.Modification.Course

/-! # What is rewritten

A modification that succeeds **rewrites** its key if the map that it goes to holds
something else under the key afterwards. This is what its answer tells, on stores
that hold no indeterminate facts, however the layers cover each other: a fact that
is not a number might be a new one each time that it is computed. The events
that follow a change are put out on the strength of that answer, so a rule that
fires puts them out for those of its modifications that have rewritten something,
each judged by the store that the ones before it left. -/

namespace Cascade

open Attempt

/-! ## Contents before and after -/

namespace Fact

/-- Whether a key holds the same before and after: nothing, or facts that are equal
    as values. -/
def sameContent : Option Fact → Option Fact → Bool
  | before, some f => isSame? before f
  | before, none => before.isNone

theorem sameContent_self {content : Option Fact}
    (definite : ∀ birth, content ≠ some (.indeterminate birth)) :
    sameContent content content = true := by
  cases content with
  | none => rfl
  | some f => exact same_self fun unborn => definite none (congrArg some unborn)

/-- What is not indeterminate is equal to no fact that is. -/
theorem isSame?_indeterminate {before : Option Fact}
    (definite : ∀ birth, before ≠ some (.indeterminate birth)) (birth : Option Birth) :
    isSame? before (.indeterminate birth) = false := by
  cases before with
  | none => rfl
  | some f =>
    cases f with
    | indeterminate b => exact absurd rfl (definite b)
    | _ => rfl

/-- A key that held something definite holds the same after a write only if it held
    the fact that was written. -/
theorem sameContent_settle {before : Option Fact} {f : Fact}
    (definite : ∀ birth, before ≠ some (.indeterminate birth))
    (absent : isSame? before f = false) (births : Births) (key : Key) :
    sameContent before (births.settle key (some f)) = false := by
  unfold Births.settle
  split
  · exact isSame?_indeterminate definite _
  · exact absent

end Fact

namespace Layered

/-- None of the maps of a store holds an indeterminate fact. -/
def IsDefinite (db : Layered) : Prop :=
  ∀ slot key birth, (db.factsAt slot).at? key ≠ some (.indeterminate birth)

variable {removable : Prop} {db db' : Layered} {key : Key} {layer : LayerRef} {changed : Bool}

theorem isDefinite_ofFacts {facts : Facts}
    (h : ∀ name birth, facts.get? name ≠ some (.indeterminate birth)) :
    (ofFacts facts).IsDefinite := by
  intro slot key birth
  cases key with
  | other d => exact nofun
  | name s =>
    cases slot with
    | global => exact h s birth
    | layer n =>
      rw [at?_factsAt, cell?]
      by_cases lowest : n = 0
      · simp [mapAt?, layers, ofFacts, lowest, Facts.at?]
      · simp [mapAt?, layers, ofFacts, Ne.symm lowest]

/-- A store stays definite when a fact is written that is not indeterminate. -/
theorem IsDefinite.write (h : db.IsDefinite) {f : Fact}
    (definite : ∀ birth, f ≠ .indeterminate birth) (slot : Slot) (written : Key) :
    (db.write slot written (some f)).IsDefinite := by
  intro other key birth
  have before := h other key birth
  rw [at?_factsAt] at before ⊢
  rw [cell?_write, db.births.settle_of_born (definite none)]
  split
  · cases held : db.cell? other key with
    | none => exact nofun
    | some content =>
      rw [held] at before
      simp only [Option.map_some, Option.join_some]
      unfold Facts.overwritten
      split
      · split
        · simpa using definite birth
        · exact before
      · exact before
  · exact before

/-- A write shows nowhere but under its key in its map. -/
theorem cell?_write_of_ne {slot other : Slot} {written : Key} (content : Option Fact)
    (apart : ¬(other = slot ∧ key = written)) :
    (db.write slot written content).cell? other key = db.cell? other key := by
  rw [cell?_write]
  split
  · rename_i same
    have other : key ≠ written := fun h => apart ⟨same.symm, h⟩
    rw [Facts.overwritten_of_ne other, Option.map_id, id]
  · rfl

namespace Course

/-- No course opens or drops a layer. -/
theorem frames (h : Course removable db key layer changed db') : db'.frames = db.frames := by
  cases h with
  | idle => rfl
  | wrote name f => exact Agree.frames_write ..
  | erased name => exact Agree.frames_write ..

/-- No course shows anywhere but under the key in the map that was named. -/
theorem elsewhere (h : Course removable db key layer changed db') {slot : Slot} {other : Key}
    (apart : ¬(layer.slot db = .ok slot ∧ other = key)) :
    db'.cell? slot other = db.cell? slot other := by
  cases h with
  | idle => rfl
  | wrote name f named =>
    refine cell?_write_of_ne _ fun ⟨same, key⟩ => apart ⟨?_, key⟩
    rw [named, same]
    rfl
  | erased name named =>
    refine cell?_write_of_ne _ fun ⟨same, key⟩ => apart ⟨?_, key⟩
    rw [named, same]
    rfl

end Course

/-- Whether a map holds something else under a key in the second of two stores. -/
def rewritten (layer : LayerRef) (key : Key) (before after : Layered) : Bool :=
  match layer.slot before with
  | .ok slot => !Fact.sameContent ((before.factsAt slot).at? key) ((after.factsAt slot).at? key)
  | .error _ => false

/-- What is answered on any course is whether the key was rewritten. -/
theorem Course.changed_eq (definite : db.IsDefinite)
    (h : Course removable db key layer changed db') : changed = rewritten layer key db db' := by
  cases h with
  | idle =>
    unfold rewritten
    split
    · rename_i slot _
      rw [Fact.sameContent_self (definite slot key), Bool.not_true]
    · rfl
  | wrote name f named given absent =>
    obtain ⟨s, rfl⟩ := given
    obtain rfl := named
    have after := at?_write db name s (some f)
    have differs := Fact.sameContent_settle (definite _ _) absent db.births (.name s)
    simp only [rewritten, LayerRef.slot, after, differs, Bool.not_false]
  | erased name named =>
    obtain rfl := named
    cases key with
    | other d => rfl
    | name s =>
      have after : _ = none := at?_write db name s none
      simp only [rewritten, LayerRef.slot, after, Fact.sameContent, Option.not_isNone]

end Layered

/-! ## Modifications -/

namespace Modification

variable {db db' : Layered} {look : Lookup} {default : LayerRef} {changed : Bool}

/-- A modification that succeeds keeps the layers and everything but its key in the
    map that it goes to, and answers whether it has rewritten that. -/
theorem exact_of_ok {m : Modification} (definite : db.IsDefinite)
    (h : (m.apply look default).on db = (.ok changed, db')) :
    db'.frames = db.frames ∧
      (∀ slot key, ¬((m.target default).slot db = .ok slot ∧ key = m.key) →
        db'.cell? slot key = db.cell? slot key) ∧
      changed = Layered.rewritten (m.target default) m.key db db' := by
  have course := course_of_ok h
  exact ⟨course.frames, fun _ _ apart => course.elsewhere apart, course.changed_eq definite⟩

/-- What follows a modification follows a change. -/
theorem outputs_eq (m : Modification) (changed : Bool) :
    m.outputs changed = if changed then m.outputs true else [] := by
  obtain ⟨key, layer, effect⟩ := m
  cases changed with
  | true => rfl
  | false => cases effect <;> rfl

end Modification

/-! ## Rules -/

/-- A modification that was applied, with the store before and after. -/
structure Alteration where
  modification : Modification
  before : Layered
  after : Layered

namespace Alteration

/-- The events that follow the change, if the key was rewritten. -/
def follows (a : Alteration) (layer : LayerName) : List Document :=
  let m := a.modification
  if Layered.rewritten (m.target (.named layer)) m.key a.before a.after then m.outputs true
  else []

end Alteration

namespace Engine

variable {η ω : Type}

/-- The modifications that are applied to a store, one after the other, until one
    of them fails. -/
def alterations (look : Lookup) (layer : LayerName) : List Modification → Layered → List Alteration
  | [], _ => []
  | m :: ms, db =>
    (m.apply look (.named layer)).onward db fun _ db' =>
      ⟨m, db, db'⟩ :: alterations look layer ms db'

/-- What follows modifications that all succeed follows what each has rewritten. -/
theorem outputs_applyAll {look : Lookup} {layer : LayerName} {ms : List Modification}
    {db db' : Layered} {outputs : List Document}
    (definite : ∀ a ∈ alterations look layer ms db, a.before.IsDefinite)
    (h : (applyAll look layer ms).on db = (.ok outputs, db')) :
    outputs = (alterations look layer ms db).flatMap (·.follows layer) := by
  induction ms generalizing db outputs with
  | nil =>
    obtain ⟨rfl, rfl⟩ := of_pure_ok h
    rfl
  | cons m ms ih =>
    obtain ⟨changed, db₁, first, h⟩ := of_bind_ok h
    obtain ⟨later, db₂, others, h⟩ := of_bind_ok h
    obtain ⟨rfl, rfl⟩ := of_pure_ok h
    rw [alterations, onward_of_ok first] at definite ⊢
    obtain ⟨here, further⟩ := List.forall_mem_cons.mp definite
    obtain ⟨-, -, rewritten⟩ := Modification.exact_of_ok here first
    rw [List.flatMap_cons, ← ih further others, m.outputs_eq, rewritten]
    rfl

namespace Trial

/-- The modifications that are applied in a trial whose rule holds. -/
def alterations (t : Trial η ω) : List Alteration :=
  Engine.alterations t.event.lookup t.before.config.layer t.rule.modifications t.before.store

variable {t : Trial η ω} {outputs : List Document}

/-- In a trial whose rule fires the modifications have all succeeded. -/
theorem applied_of_fires (fires : t.outputs? = some outputs) :
    ∃ db, (applyAll t.event.lookup t.before.config.layer t.rule.modifications).on t.before.store
      = (.ok outputs, db) := by
  have done : t.transacted.1 = .ok (.ok outputs) := by
    unfold outputs? at fires
    split at fires
    · rename_i done
      cases fires
      exact done
    · cases fires
  have writing := writing_applyAll t.event.blind_lookup t.before.config.layer t.rule.modifications
  unfold transacted at done
  by_cases isOpen : t.before.store.journal.active.isSome
  · rw [transaction_of_open isOpen] at done
    cases done
  · rw [transaction_on writing (by simpa using isOpen)] at done
    rcases ha : (applyAll t.event.lookup t.before.config.layer t.rule.modifications).on
      t.before.store with ⟨f | outputs', db⟩
    · rw [ha, settled] at done
      split at done <;> cases done
    · rw [ha] at done
      cases done
      exact ⟨db, rfl⟩

/-- What a trial adds to the queue after the actions, if its rule fires and they come
    to an end: what follows the keys that were rewritten, and the outputs of the
    rule. -/
theorem pending_of_fires {host : Host η ω} (fires : t.Fires) (calm : t.lapse? host = none)
    (definite : ∀ a ∈ t.alterations, a.before.IsDefinite) :
    (t.result host).2.queue.pending
      = (t.called host).queue.pending ++ outputsOf t.rule t.event
          (t.alterations.flatMap (·.follows t.before.config.layer) ++ t.rule.outputs.map .str) := by
  obtain ⟨outputs, fired⟩ := Option.isSome_iff_exists.mp fires
  obtain ⟨db, applied⟩ := applied_of_fires fired
  rw [result_of_fires host fired, left_then_pure, pending_fire host fired, puts_of_calm fired calm,
    outputs_applyAll definite applied]
  rfl

end Trial

/-- On a store that holds no indeterminate fact, a modification that fails changes
    nothing. One that succeeds keeps the layers and everything but its key in the
    map that it goes to, and answers that there was a change exactly if that map
    holds something else under the key then. So a rule that fires puts out, after
    what its actions enqueue, what follows those of its modifications that have
    rewritten their keys, and the outputs of its own. It puts out nothing if a handler
    raises a fault that cannot be worded, with which the rule then fails; and neither
    does a rule that does not fire. -/
theorem changes_exact (host : Host η ω) (event : Event) (rule : Rule) (e : Engine η ω) :
    (∀ (m : Modification) (look : Lookup) (default : LayerRef) (db : Layered), db.IsDefinite →
      (∀ f db', (m.apply look default).on db = (.error f, db') → db' = db) ∧
      ∀ changed db', (m.apply look default).on db = (.ok changed, db') →
        db'.frames = db.frames ∧
        (∀ slot key, ¬((m.target default).slot db = .ok slot ∧ key = m.key) →
          db'.cell? slot key = db.cell? slot key) ∧
        changed = Layered.rewritten (m.target default) m.key db db') ∧
      let t : Trial η ω := ⟨event, rule, e⟩
      (∀ a ∈ t.alterations, a.before.IsDefinite) →
        (t.Fires → t.lapse? host = none → (t.result host).2.queue.pending
          = (t.called host).queue.pending ++ outputsOf rule event
              (t.alterations.flatMap (·.follows e.config.layer) ++ rule.outputs.map .str)) ∧
        (∀ f, t.lapse? host = some f → t.result host = (.error f, t.called host)) ∧
        (¬t.Fires → (t.result host).2.queue = e.queue) ∧
        (host.IsOutward → (t.called host).queue = e.queue) := by
  refine ⟨fun m look default db definite => ⟨fun f db' fails => ?_, fun changed db' done => ?_⟩,
    fun definite => ⟨fun fires calm => ?_, fun f lapse => ?_, fun idle => ?_, fun outward => ?_⟩⟩
  · exact (m.cautious_apply default).unchanged fails
  · exact Modification.exact_of_ok definite done
  · exact Trial.pending_of_fires fires calm definite
  · exact Trial.result_of_lapse lapse
  · exact Trial.queue_of_idle host (by simpa [Trial.Fires] using idle)
  · exact Trial.queue_called outward ⟨event, rule, e⟩

namespace Audit

open Modification.Chest

/-- Notes the gold that a layer gives, and books some in the global map. -/
def audit : Rule :=
  ⟨"audit", "audit", .always,
    [⟨.name "gold", none, .setIfChanged (.constant (.int 7)) [.str "noted"]⟩,
      ⟨.name "gold", some (.named .global), .setIfChanged (.constant (.int 9)) [.str "booked"]⟩],
    [], ["audited"], .bool false, .int 0, .bool true⟩

/-- The audit on five pieces of gold under a layer that gives seven. -/
def trial : Trial Unit Unit :=
  ⟨⟨"audit", ∅, "audit", none⟩, audit,
    { ofConfig .default (.collecting []) () with store := chest (.int 7) }⟩

theorem chest_definite : (chest (.int 7)).IsDefinite := by
  have gold : (Layered.ofFacts (.ofList [("gold", .int 5)])).IsDefinite := by
    refine Layered.isDefinite_ofFacts fun name birth => ?_
    have single : Facts.ofList [("gold", .int 5)] = (∅ : Facts).insert "gold" (.int 5) := rfl
    rw [single, Facts.get?_insert, Facts.get?_empty]
    split <;> exact nofun
  have seven : ∀ birth, Fact.int 7 ≠ .indeterminate birth := nofun
  exact gold.write seven _ _

/-- Only the global gold was rewritten, and what follows that was put out. -/
theorem audit_books :
    trial.Fires ∧
      ((trial.result (.ofReaction .silent)).2.queue.pending.map (·.id))
        = ["booked", "audited"] := by
  have fires : trial.Fires := by
    unfold Trial.Fires
    decide +kernel
  have altered : trial.alterations
      = [⟨_, chest (.int 7), chest (.int 7)⟩,
          ⟨_, chest (.int 7), (chest (.int 7)).write .global (.name "gold") (some (.int 9))⟩] := rfl
  have definite : ∀ a ∈ trial.alterations, a.before.IsDefinite := by
    rw [altered]
    simp [chest_definite]
  have follows : trial.alterations.flatMap (·.follows trial.before.config.layer)
      = [.str "booked"] := rfl
  obtain ⟨-, puts⟩ := changes_exact (.ofReaction .silent) trial.event audit trial.before
  obtain ⟨enqueued, -, -, untouched⟩ := puts definite
  have calm : trial.lapse? (.ofReaction .silent) = none := rfl
  have enqueued : (trial.result (.ofReaction .silent)).2.queue.pending
      = (trial.called (.ofReaction .silent)).queue.pending ++ outputsOf audit trial.event
          (trial.alterations.flatMap (·.follows trial.before.config.layer)
            ++ audit.outputs.map .str) := enqueued fires calm
  have untouched : (trial.called (.ofReaction .silent)).queue = trial.before.queue :=
    untouched (Host.isOutward_ofReaction Reaction.silent)
  rw [follows, untouched] at enqueued
  exact ⟨fires, by rw [enqueued]; rfl⟩

end Audit

end Engine

end Cascade
