-- SUMMARY: What a modification makes of a store: at most one write, to the innermost layer or the global map, of what fits what the key reads as.
import Cascade.Proofs.Engine.Transaction
import Cascade.Proofs.Store.Agreement

/-! # Writes that fit

A modification ends with one write, or with none. The write goes to the innermost
layer or to the global map, so the layers below stay as they are. And what is
written **fits** what the key reads as: it is a fact of the same kind, unless the
key reads as nothing, and it is nothing only if facts may be removed. -/

namespace Cascade

open Attempt

/-- Whether something may take the place of what a key reads as. -/
def Fact.Fits (removable : Prop) (before : Option Fact) : Option Fact → Prop
  | some new => ∀ f, before = some f → new.kind = f.kind
  | none => removable

/-- What may be written over a visible fact is a fact of its kind, as it is, or an
    integer made a float because the visible fact is one. -/
theorem Fact.of_assignable {key : Key} {visible : Option Fact} {new f : Fact}
    (h : assignable key visible new = .ok f) :
    (f = new ∧ ∀ g, visible = some g → new.kind = g.kind) ∨
      ∃ g n x, visible = some g ∧ g.kind = .float ∧ new = .int n ∧ floatOfInt? n = some x ∧
        f = .float x := by
  cases visible with
  | none => exact .inl ⟨(Except.ok.inj h).symm, nofun⟩
  | some g =>
    unfold assignable at h
    by_cases same : g.kind = new.kind
    · simp only [if_pos same] at h
      refine .inl ⟨(Except.ok.inj h).symm, fun g' found => ?_⟩
      cases found
      exact same.symm
    · simp only [if_neg same] at h
      split at h
      · rename_i n float
        unfold ofKind at h
        cases wide : floatOfInt? n with
        | none => simp [wide] at h
        | some x =>
          simp only [wide] at h
          exact .inr ⟨g, n, x, rfl, float, rfl, wide, (Except.ok.inj h).symm⟩
      · cases h

/-- A fact that may be written over a visible one is of its kind. -/
theorem Fact.fits_of_assignable {key : Key} {visible : Option Fact} {new f : Fact}
    (removable : Prop) (h : assignable key visible new = .ok f) :
    Fits removable visible (some f) := by
  rintro g rfl
  obtain ⟨rfl, same⟩ | ⟨g, n, x, found, float, -, -, rfl⟩ := of_assignable h
  · exact same g rfl
  · cases found
    exact float.symm

/-- Being born has no part in the kind of a fact. -/
theorem Births.settle_some (births : Births) (key : Key) (f : Fact) :
    ∃ g, births.settle key (some f) = some g ∧ g.kind = f.kind := by
  unfold settle
  split
  · rename_i s born
    cases born
    exact ⟨_, rfl, rfl⟩
  · exact ⟨f, rfl, rfl⟩

namespace Layered

/-! ## Writes to the outermost and the innermost map -/

section Maps

variable (db : Layered) (key : Key) (content : Option Fact)

/-- A write to the innermost layer changes no other. -/
theorem write_inner :
    (db.write db.innerSlot key content).inner
        = { db.inner with facts := db.inner.facts.assign key (db.births.settle key content) } ∧
      (db.write db.innerSlot key content).outer = db.outer ∧
      (db.write db.innerSlot key content).global = db.global := by
  refine ⟨by simp [write, modifyAt, innerSlot, Layer.modify], ?_, rfl⟩
  have below := (List.pairwise_cons.mp (List.pairwise_cons.mp db.descending).2).1
  refine (List.map_congr_left fun l hl => modify_of_fixed fun same => ?_).trans (List.map_id _)
  have lower := below l.serial (List.mem_map_of_mem hl)
  omega

theorem write_global :
    (db.write .global key content).layers = db.layers ∧
      (db.write .global key content).global
        = db.global.assign key (db.births.settle key content) := ⟨rfl, rfl⟩

/-- A write that a caller can ask for leaves the layers under the innermost one
    alone. -/
theorem outer_write (name : LayerName) :
    (db.write (name.slot db) key content).outer = db.outer := by
  cases name with
  | inner => exact (db.write_inner key content).2.1
  | global => rfl

end Maps

/-- One write, to the innermost layer or the global map, of what fits what the
    key reads as. -/
inductive Fitted (removable : Prop) (db : Layered) : Layered → Prop
  | written (name : LayerName) (key : Key) {content : Option Fact} :
      Fact.Fits removable (db.visible? key) content →
      Fitted removable db (db.write (name.slot db) key content)

variable {removable : Prop} {db db' : Layered}

/-- The layers under the innermost one stay. -/
theorem Fitted.outer (h : Fitted removable db db') : db'.outer = db.outer := by
  obtain ⟨name, key, -⟩ := h
  exact outer_write ..

/-! ## Operations that fit -/

/-- What a reading gives is nothing to the store. -/
theorem fitted_reading {α β : Type} {f : Layered → Except Fault α} {g : α → Attempt Layered β}
    (h : ∀ x, f db = .ok x → Relation.ReflTransGen (Fitted removable) db ((g x).on db).2) :
    Relation.ReflTransGen (Fitted removable) db ((reading f >>= g).on db).2 := by
  rw [on_bind, on_reading]
  cases hx : f db with
  | error e => exact .refl
  | ok x => exact h x hx

theorem fitted_given {α β : Type} {x : Except Fault α} {g : α → Attempt Layered β}
    (h : ∀ y, x = .ok y → Relation.ReflTransGen (Fitted removable) db ((g y).on db).2) :
    Relation.ReflTransGen (Fitted removable) db ((ofExcept x >>= g).on db).2 :=
  fitted_reading h

variable {key : Key} {name : LayerName} {layer : LayerRef}

theorem fitted_read {β : Type} {g : Option Fact → Attempt Layered β}
    (h : Relation.ReflTransGen (Fitted removable) db ((g (db.visible? key)).on db).2) :
    Relation.ReflTransGen (Fitted removable) db ((reading (·.read key) >>= g).on db).2 := by
  refine fitted_reading fun visible hv => ?_
  unfold read at hv
  split at hv
  · cases hv
    exact h
  · cases hv

theorem fitted_target {β : Type} {g : Place Layered → Attempt Layered β}
    (h : ∀ name : LayerName,
      Relation.ReflTransGen (Fitted removable) db ((g (place (name.slot db))).on db).2) :
    Relation.ReflTransGen (Fitted removable) db ((target layer >>= g).on db).2 := by
  refine fitted_reading fun p hp => ?_
  cases layer with
  | other d => cases hp
  | named name =>
    cases hp
    exact h name

theorem fitted_setAtIfChanged {f : Fact} (fits : Fact.Fits removable (db.visible? key) (some f)) :
    Relation.ReflTransGen (Fitted removable) db
      (((place (name.slot db)).setIfChanged key (.fact f)).on db).2 := by
  refine fitted_given fun given same => ?_
  cases same
  refine fitted_reading fun stored _ => ?_
  split
  · exact .refl
  · cases key with
    | other d => exact .refl
    | name s =>
      by_cases nameless : s = ""
      · subst nameless
        exact .refl
      · have stores := (place (name.slot db)).set_named nameless f db
        have last : ((place (name.slot db)).set (.name s) (.fact f) >>= fun _ => pure true).on db
            = (.ok true, db.write (name.slot db) (.name s) (some f)) := bind_of_ok stores _
        exact last ▸ .single (.written name (.name s) fits)

theorem fitted_setIfChanged {f : Fact} (fits : Fact.Fits removable (db.visible? key) (some f)) :
    Relation.ReflTransGen (Fitted removable) db
      ((setIfChanged key (.fact f) layer).on db).2 := by
  have plain : Relation.ReflTransGen (Fitted removable) db
      ((target layer >>= fun p => p.setIfChanged key (.fact f)).on db).2 :=
    fitted_target fun name => fitted_setAtIfChanged fits
  cases layer with
  | other d => exact plain
  | named name =>
    cases name with
    | global => exact plain
    | inner =>
      refine fitted_read (fitted_given fun given same => ?_)
      cases same
      split
      · exact .refl
      · exact fitted_target fun name => fitted_setAtIfChanged fits

theorem fitted_remove (allowed : removable) :
    Relation.ReflTransGen (Fitted removable) db ((remove key layer).on db).2 := by
  refine fitted_target fun name => fitted_reading fun stored _ => ?_
  exact .single (.written name key allowed)

end Layered

/-! ## Modifications -/

namespace Modification

open Layered

variable {removable : Prop} {db : Layered} {look : Lookup} {key : Key} {layer : LayerRef}

theorem fitted_overwrite (new : Except Fault Fact) :
    Relation.ReflTransGen (Fitted removable) db
      ((overwrite key layer (db.visible? key) new).on db).2 := by
  refine fitted_given fun f hf => ?_
  cases new with
  | error e => cases hf
  | ok new => exact fitted_target fun name => fitted_setAtIfChanged (Fact.fits_of_assignable _ hf)

theorem fitted_count (op : Arithmetic) (amount : ValueSpec) :
    Relation.ReflTransGen (Fitted removable) db ((count op key amount look layer).on db).2 :=
  fitted_reading fun _ _ => fitted_read (fitted_overwrite _)

/-- Whatever comes of a modification, it has written something that fits, if
    anything, and to a map that a caller can name. -/
theorem fitted_apply (m : Modification) (look : Lookup) (default : LayerRef)
    (allowed : m.effect = .remove → removable) (db : Layered) :
    Relation.ReflTransGen (Fitted removable) db ((m.apply look default).on db).2 := by
  obtain ⟨key, layer, effect⟩ := m
  cases effect with
  | set value => exact fitted_reading fun _ _ => fitted_read (fitted_overwrite _)
  | setIfChanged value outputs =>
    refine fitted_reading fun new _ => fitted_read (fitted_given fun f hf => ?_)
    split
    · exact .refl
    · exact fitted_setIfChanged (Fact.fits_of_assignable _ hf)
  | increment amount => exact fitted_count .add amount
  | decrement amount => exact fitted_count .sub amount
  | combine op operand =>
    refine fitted_read ?_
    cases hv : db.visible? key with
    | none => exact .refl
    | some f =>
      refine fitted_reading fun _ _ => ?_
      rw [← hv]
      exact fitted_overwrite _
  | remove =>
    have applied : apply ⟨key, layer, .remove⟩ look default = do
        return (← Layered.remove key (target ⟨key, layer, .remove⟩ default)).isSome := rfl
    rw [applied, left_then_pure]
    exact fitted_remove (allowed rfl)
  | toggle =>
    refine fitted_read ?_
    cases hv : db.visible? key with
    | none =>
      refine fitted_target fun name => fitted_setAtIfChanged ?_
      rw [hv]
      exact nofun
    | some f =>
      cases f with
      | bool b =>
        refine fitted_target fun name => fitted_setAtIfChanged ?_
        rintro g hg
        rw [hv] at hg
        cases hg
        rfl
      | _ => exact .refl

end Modification

namespace Engine

variable {removable : Prop}

/-- Modifications in order write what fits, to maps that a caller can name. -/
theorem fitted_applyAll (look : Lookup) (layer : LayerName) {ms : List Modification}
    (allowed : ∀ m ∈ ms, m.effect = .remove → removable) :
    Takes (Layered.Fitted removable) (applyAll look layer ms) := by
  induction ms with
  | nil => exact .pure []
  | cons m ms ih =>
    obtain ⟨first, others⟩ := List.forall_mem_cons.mp allowed
    refine Takes.bind (m.fitted_apply look (.named layer) first) fun changed _ => ?_
    exact (ih others).bind fun later _ => .pure _

/-- Modifications under a checkpoint write what fits as well, also if they are
    undone. -/
theorem fitted_transaction (event : Event) (layer : LayerName) {ms : List Modification}
    (allowed : ∀ m ∈ ms, m.effect = .remove → removable) :
    Takes (Layered.Fitted removable) (transaction (applyAll event.lookup layer ms)) := by
  intro db
  obtain same | ⟨-, left⟩ :=
    transaction_leaves (writing_applyAll event.blind_lookup layer ms) db
  · rw [same]
  · rw [left]
    exact fitted_applyAll event.lookup layer allowed db

end Engine

end Cascade
