-- SUMMARY: Attempts on a store that see some keys and write some keys only, for every operation that modifications are made of, and modifications under a checkpoint.
import Cascade.Proofs.Engine.Transaction
import Cascade.Proofs.Rule.Reads
import Cascade.Proofs.Store.Agreement

/-! # Footprints

The **footprint** of an attempt on a store are the keys that it may see and the
keys that it may write. From stores that agree on the keys that it sees, an
attempt has one outcome and leaves stores that agree on them; and it leaves every
store as it was on the keys that it does not write. The footprint of a
modification is what its text refers to, and that of modifications under a
checkpoint is theirs together, also if they fail and are undone. -/

namespace Cascade

open Attempt

namespace Layered

/-- An attempt that sees no keys but those of one set, and writes no keys but
    those of another one. -/
structure Footprint {α : Type} (seen written : Set Key) (a : Attempt Layered α) : Prop where
  sees : Respects (Agree seen) a
  writes : ∀ db, Agree writtenᶜ db (a.on db).2

namespace Footprint

variable {α β : Type} {seen written : Set Key}

/-! ## Sequences -/

theorem of_idle {a : Attempt Layered α} (sees : Respects (Agree seen) a) (idle : Idle a) :
    Footprint seen written a := by
  refine ⟨sees, fun db => ?_⟩
  rw [idle db]
  exact .refl _ db

theorem pure (x : α) : Footprint seen written (pure x : Attempt Layered α) :=
  .of_idle (.pure x) fun _ => rfl

theorem throw (f : Fault) : Footprint seen written (throw f : Attempt Layered α) :=
  .of_idle (.throw f) fun _ => rfl

theorem ofExcept (e : Except Fault α) : Footprint seen written (Attempt.ofExcept e) :=
  .of_idle (.ofExcept e) (idle_ofExcept e)

theorem reading {f : Layered → Except Fault α}
    (hf : ∀ db db', Agree seen db db' → f db = f db') : Footprint seen written (reading f) :=
  .of_idle (.reading hf) (idle_reading f)

theorem bind {a : Attempt Layered α} {f : α → Attempt Layered β} (ha : Footprint seen written a)
    (hf : ∀ x, (∃ db, (a.on db).1 = .ok x) → Footprint seen written (f x)) :
    Footprint seen written (a >>= f) := by
  refine ⟨ha.sees.bind fun x hx => (hf x hx).sees, fun db => ?_⟩
  have first := ha.writes db
  rcases h : a.on db with ⟨x | x, db'⟩
  · rw [bind_of_error h]
    rw [h] at first
    exact first
  · rw [bind_of_ok h]
    rw [h] at first
    exact first.trans ((hf x ⟨db, by rw [h]⟩).writes db')

/-- The second part mostly has the footprint whatever the first one gives. -/
theorem seq {a : Attempt Layered α} {f : α → Attempt Layered β} (ha : Footprint seen written a)
    (hf : ∀ x, Footprint seen written (f x)) : Footprint seen written (a >>= f) :=
  ha.bind fun x _ => hf x

/-! ## One key -/

variable {key : Key}

theorem read (hs : key ∈ seen) :
    Footprint seen written (Attempt.reading (Layered.read · key)) :=
  reading fun _ _ h => h.read hs

theorem write (hw : key ∈ written) (slot : Slot) (content : Option Fact) :
    Footprint seen written
      (modify ((place slot).write key content) : Attempt Layered PUnit) := by
  refine ⟨.modify fun db db' h => h.write slot key content, fun db => ?_⟩
  exact .written (not_not_intro hw) db slot content

theorem get (hs : key ∈ seen) (slot : Slot) :
    Footprint seen written (Attempt.reading ((place slot).get key)) := by
  refine reading fun db db' h => ?_
  simp only [Place.get, place, h.at? hs slot]

theorem set (hw : key ∈ written) (slot : Slot) (value : Datum) :
    Footprint seen written ((place slot).set key value) := by
  refine (ofExcept _).bind fun entry given => ?_
  obtain ⟨name, f⟩ := entry
  obtain ⟨db, given⟩ := given
  -- what can be stored is stored under the key itself
  obtain ⟨rfl, -⟩ := Facts.of_assignment given
  exact write hw slot (some f)

theorem setAtIfChanged (hs : key ∈ seen) (hw : key ∈ written) (slot : Slot) (value : Datum) :
    Footprint seen written ((place slot).setIfChanged key value) := by
  refine (ofExcept _).seq fun f => (get hs slot).seq fun stored => ?_
  cases Fact.isSame? stored f with
  | true => exact pure false
  | false => exact (set hw slot (.fact f)).seq fun _ => pure true

theorem removeAt (hs : key ∈ seen) (hw : key ∈ written) (slot : Slot) :
    Footprint seen written ((place slot).remove key) := by
  refine (get hs slot).seq fun stored => ?_
  exact (write hw slot none).seq fun _ => pure stored

/-- What goes on at a layer goes on at the place of some slot. -/
theorem target {layer : LayerRef} {f : Place Layered → Attempt Layered α}
    (h : ∀ slot, Footprint seen written (f (place slot))) :
    Footprint seen written (Layered.target layer >>= f) := by
  refine bind (reading fun db db' same => by rw [same.slot layer]) fun p given => ?_
  obtain ⟨db, given⟩ := given
  rw [Layered.target, on_reading] at given
  cases hs : layer.slot db with
  | error e =>
    rw [hs] at given
    cases given
  | ok slot =>
    rw [hs] at given
    cases given
    exact h slot

theorem setIfChanged (hs : key ∈ seen) (hw : key ∈ written) (value : Datum) (layer : LayerRef) :
    Footprint seen written (Layered.setIfChanged key value layer) := by
  have plain : Footprint seen written
      (Layered.target layer >>= fun p => p.setIfChanged key value) :=
    target fun slot => setAtIfChanged hs hw slot value
  cases layer with
  | other d => exact plain
  | named name =>
    cases name with
    | global => exact plain
    | inner =>
      refine (read hs).seq fun visible => (ofExcept _).seq fun f => ?_
      cases Fact.isSame? visible f with
      | true => exact pure false
      | false => exact target fun slot => setAtIfChanged hs hw slot (.fact f)

theorem remove (hs : key ∈ seen) (hw : key ∈ written) (layer : LayerRef) :
    Footprint seen written (Layered.remove key layer) :=
  target fun slot => removeAt hs hw slot

end Footprint

end Layered

/-! ## Modifications -/

namespace Modification

open Layered

variable {seen written : Set Key} {event : Event}

theorem footprint_resolve {spec : ValueSpec} (hs : ∀ key ∈ spec.keys, key ∈ seen) :
    Footprint seen written (spec.resolve event.lookup) := by
  refine .reading fun db db' h => ValueSpec.value_congr fun key hk => ?_
  exact event.lookup_congr (h.read (hs key hk))

variable {key : Key}

theorem footprint_overwrite (hs : key ∈ seen) (hw : key ∈ written) (layer : LayerRef)
    (visible : Option Fact) (new : Except Fault Fact) :
    Footprint seen written (overwrite key layer visible new) := by
  refine (Footprint.ofExcept _).seq fun f => Footprint.target fun slot => ?_
  exact .setAtIfChanged hs hw slot (.fact f)

theorem footprint_count (hs : key ∈ seen) (hw : key ∈ written) (op : Arithmetic)
    {amount : ValueSpec} (ha : ∀ key ∈ amount.keys, key ∈ seen) (layer : LayerRef) :
    Footprint seen written (count op key amount event.lookup layer) := by
  refine (footprint_resolve ha).seq fun f => (Footprint.read hs).seq fun visible => ?_
  exact footprint_overwrite hs hw layer visible _

/-- A modification sees the keys that it refers to and writes its own key. -/
theorem footprint_apply {m : Modification} (hs : ∀ key ∈ m.keys, key ∈ seen)
    (hw : m.key ∈ written) (default : LayerRef) :
    Footprint seen written (m.apply event.lookup default) := by
  obtain ⟨key, layer, effect⟩ := m
  obtain ⟨hk, hv⟩ := List.forall_mem_cons.mp hs
  cases effect with
  | set value =>
    refine (footprint_resolve hv).seq fun new => (Footprint.read hk).seq fun visible => ?_
    exact footprint_overwrite hk hw ..
  | setIfChanged value outputs =>
    refine (footprint_resolve hv).seq fun new => (Footprint.read hk).seq fun visible => ?_
    refine (Footprint.ofExcept _).seq fun f => ?_
    cases Fact.isSame? visible f with
    | true => exact .pure false
    | false => exact .setIfChanged hk hw ..
  | increment amount => exact footprint_count hk hw _ hv _
  | decrement amount => exact footprint_count hk hw _ hv _
  | combine op operand =>
    refine (Footprint.read hk).seq fun visible => ?_
    cases visible with
    | none => exact .throw _
    | some f => exact (footprint_resolve hv).seq fun g => footprint_overwrite hk hw ..
  | remove => exact (Footprint.remove hk hw _).seq fun stored => .pure _
  | toggle =>
    refine (Footprint.read hk).seq fun visible => ?_
    cases visible with
    | none => exact Footprint.target fun slot => .setAtIfChanged hk hw slot _
    | some f =>
      cases f with
      | bool b => exact Footprint.target fun slot => .setAtIfChanged hk hw slot _
      | _ => exact .throw _

end Modification

namespace Engine

open Layered

variable {α : Type} {seen written : Set Key} {event : Event}

/-- Modifications in order see the keys that they refer to and write their own
    keys. -/
theorem footprint_applyAll {ms : List Modification}
    (hs : ∀ m ∈ ms, ∀ key ∈ m.keys, key ∈ seen) (hw : ∀ m ∈ ms, m.key ∈ written)
    (layer : LayerName) : Footprint seen written (applyAll event.lookup layer ms) := by
  induction ms with
  | nil => exact .pure []
  | cons m ms ih =>
    obtain ⟨seenFirst, seenOthers⟩ := List.forall_mem_cons.mp hs
    obtain ⟨writtenFirst, writtenOthers⟩ := List.forall_mem_cons.mp hw
    refine (Modification.footprint_apply seenFirst writtenFirst _).seq fun changed => ?_
    exact (ih seenOthers writtenOthers).seq fun later => .pure _

/-! ## Under a checkpoint -/

/-- Under a checkpoint an attempt has the footprint that it has on its own: what
    is undone leaves no trace on any key. -/
theorem footprint_transaction {a : Attempt Layered α} (writing : Writing a)
    (h : Footprint seen written a) : Footprint seen written (transaction a) := by
  constructor
  · intro db db' alike
    by_cases isOpen : db.journal.active.isSome
    · rw [transaction_of_open isOpen, transaction_of_open (alike.active ▸ isOpen)]
      exact ⟨rfl, alike⟩
    · have idle : db.journal.active = none := by simpa using isOpen
      have outcome := h.sees db db' alike
      rw [transaction_on writing idle, transaction_on writing (alike.active ▸ idle)]
      rcases ha : a.on db with ⟨f | x, copy⟩ <;> rcases ha' : a.on db' with ⟨f' | x', copy'⟩ <;>
        rw [ha, ha'] at outcome <;> obtain ⟨same, left⟩ := outcome <;> cases same
      · by_cases evaluation : f.isEvaluation
        · simp only [settled, if_pos evaluation]
          exact ⟨trivial, alike⟩
        · simp only [settled, if_neg evaluation]
          exact ⟨trivial, left⟩
      · exact ⟨rfl, left⟩
  · intro db
    obtain same | ⟨-, left⟩ := transaction_leaves writing db
    · rw [same]
      exact .refl _ db
    · rw [left]
      exact h.writes db

end Engine

end Cascade
