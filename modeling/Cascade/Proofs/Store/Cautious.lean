-- SUMMARY: Store operations that fail without a trace: each works out what it writes before it writes it.
import Cascade.Proofs.Attempt
import Cascade.Store.Scopes

/-! # Operations that fail without a trace

An operation on a place looks at its arguments and at the store first and ends
with one write, which cannot fail. So one that fails has changed nothing, and
the same goes for the operations on layers that are made of them. -/

namespace Cascade

open Attempt

/-! ## Places -/

namespace Place

variable {σ : Type} (p : Place σ)

theorem cautious_set (key : Key) (value : Datum) : Cautious (p.set key value) := by
  refine .after (idle_ofExcept _) fun ⟨name, f⟩ => ?_
  exact cautious_modify _

theorem cautious_setIfChanged (key : Key) (value : Datum) :
    Cautious (p.setIfChanged key value) := by
  refine .after (idle_ofExcept _) fun f => .after (idle_reading _) fun stored => ?_
  cases Fact.isSame? stored f with
  | true => exact .of_idle fun _ => rfl
  | false => exact (p.cautious_set key (.fact f)).then_pure fun _ => true

theorem cautious_remove (key : Key) : Cautious (p.remove key) := by
  refine .after (idle_reading _) fun stored => ?_
  exact (cautious_modify _).then_pure fun _ => stored

/-- Under a name that is not empty, a fact can always be stored. -/
theorem set_named {name : String} (h : name ≠ "") (f : Fact) (s : σ) :
    (p.set (.name name) (.fact f)).on s = (.ok ⟨⟩, p.write (.name name) (some f) s) := by
  have assignment : Facts.assignment (.name name) (.fact f) = .ok (name, f) := by
    simp [Facts.assignment, Facts.storable, h, Datum.toFact, bind, Except.bind, pure, Except.pure]
  unfold Place.set
  rw [assignment]
  rfl

/-- Under a name that is not empty, a conditional write always answers, by whether the
    fact is there already. -/
theorem setIfChanged_named {name : String} (h : name ≠ "") (f : Fact) (s : σ) :
    (p.setIfChanged (.name name) (.fact f)).on s
      = if Fact.isSame? ((p.facts s).at? (.name name)) f then (.ok false, s)
        else (.ok true, p.write (.name name) (some f) s) := by
  have given : (ofExcept (Datum.fact f).toFact).on s = (.ok f, s) := rfl
  have looks : (reading (p.get (.name name))).on s = (.ok ((p.facts s).at? (.name name)), s) := rfl
  rw [Place.setIfChanged, bind_of_ok given, bind_of_ok looks]
  split
  · rfl
  · exact bind_of_ok (p.set_named h f s) _

end Place

/-! ## Layers -/

namespace Layered

theorem idle_target (layer : LayerRef) : Idle (target layer) := idle_reading _

/-- A map that a caller can name is there to be written to. -/
theorem target_on (name : LayerName) (db : Layered) :
    (target (.named name)).on db = (.ok (place (name.slot db)), db) := rfl

theorem cautious_setIfChanged (key : Key) (value : Datum) (layer : LayerRef) :
    Cautious (setIfChanged key value layer) := by
  have plain : Cautious (target layer >>= fun p => p.setIfChanged key value) :=
    .after (idle_target layer) fun p => p.cautious_setIfChanged key value
  cases layer with
  | other d => exact plain
  | named name =>
    cases name with
    | global => exact plain
    | inner =>
      refine .after (idle_reading _) fun visible => .after (idle_ofExcept _) fun f => ?_
      cases Fact.isSame? visible f with
      | true => exact .of_idle fun _ => rfl
      | false => exact .after (idle_target _) fun p => p.cautious_setIfChanged key (.fact f)

theorem cautious_remove (key : Key) (layer : LayerRef) : Cautious (remove key layer) :=
  .after (idle_target layer) fun p => p.cautious_remove key

theorem cautious_store (key : Key) (value : Datum) (layer : LayerRef) :
    Cautious (store key value layer) :=
  .after (idle_target layer) fun p => p.cautious_set key value

/-! ## Facts that are computed -/

theorem cautious_put (key : Key) (layer : LayerRef) (compute : Except Fault Fact) :
    Cautious (put key layer compute) := by
  refine .after (idle_target layer) fun p => .after (idle_ofExcept compute) fun f => ?_
  exact p.cautious_set key (.fact f)

theorem idle_require (key : Key) : Idle (require key) := by
  intro db
  unfold require
  rw [on_bind, on_reading]
  cases db.read key with
  | error e => rfl
  | ok visible => cases visible <;> rfl

theorem cautious_increment (key : Key) (amount : Datum) (layer : LayerRef) :
    Cautious (increment key amount layer) := by
  refine .after (idle_reading _) fun visible => ?_
  cases visible.getD (.int 0) with
  | int n => exact cautious_put key layer _
  | _ => exact .throw _

theorem cautious_add (key : Key) (amount : Datum) (layer : LayerRef) :
    Cautious (add key amount layer) := by
  refine .after (idle_reading _) fun visible => ?_
  cases visible with
  | none => exact cautious_put key layer _
  | some f => exact cautious_put key layer _

theorem cautious_sub (key : Key) (amount : Datum) (layer : LayerRef) :
    Cautious (sub key amount layer) :=
  .after (idle_ofExcept _) fun opposite => cautious_add key opposite layer

theorem cautious_combine (op : Arithmetic) (key : Key) (value : Datum) (layer : LayerRef) :
    Cautious (combine op key value layer) :=
  .after (idle_require key) fun _ => cautious_put key layer _

/-- A guard fails before anything is done. -/
theorem cautious_guarded {α : Type} {a : Attempt Layered α} (c : Prop) [Decidable c] (f : Fault)
    (ha : Cautious a) :
    Cautious (if c then (MonadExcept.throw f : Attempt Layered Unit) >>= fun _ => a else a) := by
  split
  · exact .after (fun _ => rfl) fun _ => ha
  · exact ha

theorem cautious_clamp (key : Key) (low high : Datum) (layer : LayerRef) :
    Cautious (clamp key low high layer) := by
  refine .after (idle_ofExcept _) fun crossed => ?_
  refine cautious_guarded _ _ (.after (idle_require key) fun f => ?_)
  refine cautious_guarded _ _ (.after (idle_ofExcept _) fun below => ?_)
  exact .after (idle_ofExcept _) fun clamped => cautious_put key layer _

theorem cautious_wrap (key : Key) (low high : Datum) (layer : LayerRef) :
    Cautious (wrap key low high layer) := by
  refine .after (idle_ofExcept _) fun crossed => ?_
  refine cautious_guarded _ _ (.after (idle_require key) fun f => ?_)
  cases f with
  | int n => exact .after (idle_ofExcept _) fun wrapped => cautious_put key layer _
  | _ => exact .throw _

/-- A copy is made of what was looked up, so it ends with one write as well. -/
theorem cautious_copy (key : Key) : Cautious (copy key) := by
  refine .after (idle_target _) fun p => .after (idle_reading _) fun stored => ?_
  cases stored with
  | none => exact .of_idle fun _ => rfl
  | some f => exact ((place .global).cautious_set key (.fact f)).then_pure fun _ => true

/-! ## Scopes and checkpoints -/

theorem cautious_pushScope (scope : Datum) : Cautious (pushScope scope) := by
  unfold pushScope
  cases scope.text? with
  | none => exact .throw _
  | some name => exact cautious_guarded _ _ (cautious_modify _)

theorem cautious_checkpoint : Cautious checkpoint := by
  refine .get fun db => cautious_guarded _ _ ?_
  exact (cautious_modify fun _ => { db with
    journal := db.journal.extend.activate (some db.journal.next) }).then_pure fun _ => _

theorem cautious_popScope (scope : Datum) : Cautious (popScope scope) := by
  refine .get fun db => ?_
  cases db.popped? with
  | none => exact .throw _
  | some rest =>
    dsimp only
    split
    · exact .throw _
    · exact (cautious_modify fun _ => rest).then_pure fun _ => db.inner.facts

end Layered

end Cascade
