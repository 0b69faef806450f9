-- SUMMARY: Store operations that only write keys and do not see the journal: attempts of that kind, put together along their text, for every operation on facts.
import Cascade.Proofs.Store.Cautious
import Cascade.Proofs.Store.Undo

/-! # Operations as writes

An operation on facts reaches the store in two ways: it reads keys, and it writes
keys of one slot. So whatever comes of it, the store that it leaves is one that
writes lead to, and a store with another journal would have fared the same. -/

namespace Cascade

open Attempt

/-- What can be stored is a fact, under the name that is given, which is not empty. -/
theorem Facts.of_assignment {key : Key} {value : Datum} {name : String} {f : Fact}
    (h : assignment key value = .ok (name, f)) :
    key = .name name ∧ name ≠ "" ∧ value.toFact = .ok f := by
  cases key with
  | other d => cases h
  | name s =>
    unfold assignment storable at h
    by_cases nameless : s = ""
    · simp only [if_pos nameless] at h
      cases h
    · simp only [if_neg nameless] at h
      cases read : value.toFact with
      | error e =>
        rw [read] at h
        cases h
      | ok g =>
        rw [read] at h
        cases h
        exact ⟨rfl, nameless, rfl⟩

namespace Layered

/-- Two stores that differ in their journals at most. -/
def Alike (db db' : Layered) : Prop :=
  ∃ journal, db' = db.booked db.births journal

/-- One write of one key, which puts no fact under an empty name. -/
def Stored (db db' : Layered) : Prop :=
  ∃ slot key content, (content.isSome → key ≠ .name "") ∧ db' = db.write slot key content

theorem Stored.written {db db' : Layered} (h : Stored db db') : Written db db' := by
  obtain ⟨slot, key, content, -, same⟩ := h
  exact ⟨slot, key, content, same⟩

theorem written_of_stored {db db' : Layered} (steps : Relation.ReflTransGen Stored db db') :
    Relation.ReflTransGen Written db db' :=
  Relation.ReflTransGen.mono (fun _ _ => Stored.written) _ _ steps

/-- An attempt that changes a store by writes only, whatever comes of it, none of
    which puts a fact under an empty name, and that does not see the journal. -/
structure Writing {α : Type} (a : Attempt Layered α) : Prop where
  stores : Takes Stored a
  blind : Respects Alike a

theorem Writing.takes {α : Type} {a : Attempt Layered α} (h : Writing a) : Takes Written a :=
  h.stores.mono fun _ _ => Stored.written

/-! ## Journals apart -/

@[simp]
theorem factsAt_booked (slot : Slot) (db : Layered) (b : Births) (j : Journal Slot) :
    (db.booked b j).factsAt slot = db.factsAt slot := by
  cases slot <;> rfl

@[simp]
theorem slot_booked (layer : LayerRef) (db : Layered) (b : Births) (j : Journal Slot) :
    layer.slot (db.booked b j) = layer.slot db := by
  cases layer with
  | named name => cases name <;> rfl
  | other d => rfl

/-- Stores that are alike stay so when one write is made to both. -/
theorem Alike.write {db db' : Layered} (h : Alike db db') (slot : Slot) (key : Key)
    (content : Option Fact) : Alike (db.write slot key content) (db'.write slot key content) := by
  obtain ⟨journal, rfl⟩ := h
  refine ⟨journal.record (db.entryOf slot key), ?_⟩
  rw [write_eq, write_eq, modifyAt_booked, entryOf, entryOf, factsAt_booked]
  rfl

/-! ## Attempts that write -/

namespace Writing

variable {α β : Type}

theorem pure (x : α) : Writing (pure x : Attempt Layered α) := ⟨.pure x, .pure x⟩

theorem throw (f : Fault) : Writing (throw f : Attempt Layered α) := ⟨.throw f, .throw f⟩

theorem ofExcept (e : Except Fault α) : Writing (Attempt.ofExcept e) :=
  ⟨.ofExcept e, .ofExcept e⟩

/-- What is read must not be the journal. -/
theorem reading {f : Layered → Except Fault α}
    (hf : ∀ db journal, f (db.booked db.births journal) = f db) : Writing (reading f) := by
  refine ⟨.reading f, .reading fun db db' h => ?_⟩
  obtain ⟨journal, rfl⟩ := h
  exact (hf db journal).symm

theorem bind {a : Attempt Layered α} {f : α → Attempt Layered β} (ha : Writing a)
    (hf : ∀ x, (∃ db, (a.on db).1 = .ok x) → Writing (f x)) : Writing (a >>= f) :=
  ⟨ha.stores.bind fun x hx => (hf x hx).stores, ha.blind.bind fun x hx => (hf x hx).blind⟩

/-- The second part mostly writes whatever the first one gives. -/
theorem seq {a : Attempt Layered α} {f : α → Attempt Layered β} (ha : Writing a)
    (hf : ∀ x, Writing (f x)) : Writing (a >>= f) :=
  ha.bind fun x _ => hf x

theorem write (slot : Slot) {key : Key} {content : Option Fact}
    (named : content.isSome → key ≠ .name "") :
    Writing (modify ((place slot).write key content) : Attempt Layered PUnit) := by
  refine ⟨.modify fun db => ⟨slot, key, content, named, rfl⟩, .modify fun db db' h => ?_⟩
  exact h.write slot key content

/-! ## Places -/

theorem get (slot : Slot) (key : Key) : Writing (Attempt.reading ((place slot).get key)) := by
  refine reading fun db journal => ?_
  simp only [Place.get, place, factsAt_booked]

theorem set (slot : Slot) (key : Key) (value : Datum) : Writing ((place slot).set key value) := by
  refine (ofExcept _).bind fun (name, f) given => ?_
  obtain ⟨db, given⟩ := given
  obtain ⟨-, named, -⟩ := Facts.of_assignment given
  exact write slot fun _ same => named (Key.name.inj same)

theorem setAtIfChanged (slot : Slot) (key : Key) (value : Datum) :
    Writing ((place slot).setIfChanged key value) := by
  refine (ofExcept _).seq fun f => (get slot key).seq fun stored => ?_
  cases Fact.isSame? stored f with
  | true => exact pure false
  | false => exact (set slot key (.fact f)).seq fun _ => pure true

theorem removeAt (slot : Slot) (key : Key) : Writing ((place slot).remove key) := by
  refine (get slot key).seq fun stored => ?_
  have removes : (none : Option Fact).isSome → key ≠ .name "" := nofun
  exact (write slot removes).seq fun _ => pure stored

/-- What goes on at a layer goes on at the place of some slot. -/
theorem target {layer : LayerRef} {f : Place Layered → Attempt Layered α}
    (h : ∀ slot, Writing (f (place slot))) : Writing (Layered.target layer >>= f) := by
  -- not every place journals its writes, but only those of slots come out here
  refine bind (reading fun db journal => by rw [slot_booked]) fun p hp => ?_
  obtain ⟨db, hp⟩ := hp
  rw [Layered.target, on_reading] at hp
  cases hs : layer.slot db with
  | error e =>
    rw [hs] at hp
    cases hp
  | ok slot =>
    rw [hs] at hp
    cases hp
    exact h slot

/-! ## Layers -/

theorem read (key : Key) : Writing (Attempt.reading (Layered.read · key)) :=
  reading fun _ _ => rfl

theorem setIfChanged (key : Key) (value : Datum) (layer : LayerRef) :
    Writing (Layered.setIfChanged key value layer) := by
  have plain : Writing (Layered.target layer >>= fun p => p.setIfChanged key value) :=
    target fun slot => setAtIfChanged slot key value
  cases layer with
  | other d => exact plain
  | named name =>
    cases name with
    | global => exact plain
    | inner =>
      refine (read key).seq fun visible => (ofExcept _).seq fun f => ?_
      cases Fact.isSame? visible f with
      | true => exact pure false
      | false => exact target fun slot => setAtIfChanged slot key (.fact f)

theorem remove (key : Key) (layer : LayerRef) : Writing (Layered.remove key layer) :=
  target fun slot => removeAt slot key

/-! ## Facts -/

theorem store (key : Key) (value : Datum) (layer : LayerRef) :
    Writing (Layered.store key value layer) :=
  target fun slot => set slot key value

theorem put (key : Key) (layer : LayerRef) (compute : Except Fault Fact) :
    Writing (Layered.put key layer compute) := by
  refine target fun slot => (ofExcept compute).seq fun f => ?_
  exact set slot key (.fact f)

theorem require (key : Key) : Writing (Layered.require key) := by
  refine (read key).seq fun visible => ?_
  cases visible with
  | none => exact throw _
  | some f => exact pure f

theorem increment (key : Key) (amount : Datum) (layer : LayerRef) :
    Writing (Layered.increment key amount layer) := by
  refine (read key).seq fun visible => ?_
  cases visible.getD (.int 0) with
  | int n => exact put key layer _
  | _ => exact throw _

theorem add (key : Key) (amount : Datum) (layer : LayerRef) :
    Writing (Layered.add key amount layer) := by
  refine (read key).seq fun visible => ?_
  cases visible with
  | none => exact put key layer _
  | some f => exact put key layer _

theorem sub (key : Key) (amount : Datum) (layer : LayerRef) :
    Writing (Layered.sub key amount layer) :=
  (ofExcept _).seq fun opposite => add key opposite layer

theorem combine (op : Arithmetic) (key : Key) (value : Datum) (layer : LayerRef) :
    Writing (Layered.combine op key value layer) :=
  (require key).seq fun _ => put key layer _

/-- A guard ends an attempt or has no part in it. -/
theorem guarded {a : Attempt Layered α} (b : Bool) (f : Fault) (ha : Writing a) :
    Writing (if b then (MonadExcept.throw f : Attempt Layered Unit) >>= fun _ => a else a) := by
  split
  · exact (throw f).seq fun _ => ha
  · exact ha

theorem clamp (key : Key) (low high : Datum) (layer : LayerRef) :
    Writing (Layered.clamp key low high layer) := by
  refine (ofExcept _).seq fun crossed => ?_
  refine guarded _ _ ((require key).seq fun f => ?_)
  refine guarded _ _ ((ofExcept _).seq fun below => (ofExcept _).seq fun clamped => ?_)
  exact put key layer _

theorem wrap (key : Key) (low high : Datum) (layer : LayerRef) :
    Writing (Layered.wrap key low high layer) := by
  refine (ofExcept _).seq fun crossed => guarded _ _ ((require key).seq fun f => ?_)
  cases f with
  | int n => exact (ofExcept _).seq fun wrapped => put key layer _
  | _ => exact throw _

/-! ## Moving facts -/

theorem promote (key : Key) : Writing (Layered.promote key) := by
  refine target fun slot => (removeAt slot key).seq fun stored => ?_
  cases stored with
  | none => exact pure false
  | some f => exact (set .global key (.fact f)).seq fun _ => pure true

theorem copy (key : Key) : Writing (Layered.copy key) := by
  refine target fun slot => (get slot key).seq fun stored => ?_
  cases stored with
  | none => exact pure false
  | some f => exact (set .global key (.fact f)).seq fun _ => pure true

theorem demote (key : Key) : Writing (Layered.demote key) := by
  refine (removeAt .global key).seq fun stored => ?_
  cases stored with
  | none => exact pure false
  | some f => exact target fun slot => (set slot key (.fact f)).seq fun _ => pure true

end Writing

/-! ## Operations that succeed

Where an operation has gone on, what it asked for could be asked for, and what it
put somewhere could be put there. -/

variable {db db' : Layered} {key : Key}

/-- Only what is neither a list nor a record can be asked for. -/
theorem of_read {visible : Option Fact} (h : db.read key = .ok visible) :
    key.toDatum.isScalar = true ∧ visible = db.visible? key := by
  unfold Layered.read at h
  split at h
  · rename_i scalar
    cases h
    exact ⟨scalar, rfl⟩
  · cases h

section

variable {β : Type} {x : β}

theorem of_read_bind {next : Option Fact → Attempt Layered β}
    (h : (reading (·.read key) >>= next).on db = (.ok x, db')) :
    (next (db.visible? key)).on db = (.ok x, db') := by
  obtain ⟨visible, found, h⟩ := of_reading_bind h
  obtain ⟨-, rfl⟩ := of_read found
  exact h

/-- What a caller names, if something goes on there, is a map. -/
theorem of_target_bind {layer : LayerRef} {next : Place Layered → Attempt Layered β}
    (h : (target layer >>= next).on db = (.ok x, db')) :
    ∃ name, layer = .named name ∧ (next (place (name.slot db))).on db = (.ok x, db') := by
  obtain ⟨p, found, h⟩ := of_reading_bind h
  cases layer with
  | other d => cases found
  | named name =>
    cases found
    exact ⟨name, rfl, h⟩

theorem of_get_bind {slot : Slot} {next : Option Fact → Attempt Layered β}
    (h : (reading ((place slot).get key) >>= next).on db = (.ok x, db')) :
    (next ((db.factsAt slot).at? key)).on db = (.ok x, db') := by
  obtain ⟨stored, found, h⟩ := of_reading_bind h
  unfold Place.get at found
  split at found
  · cases found
    exact h
  · cases found

end

/-- What can be put into a map is a fact under a name, and it is written there. -/
theorem of_set {slot : Slot} {f : Fact} {x : Unit}
    (h : ((place slot).set key (.fact f)).on db = (.ok x, db')) :
    (∃ s, key = .name s) ∧ db' = db.write slot key (some f) := by
  obtain ⟨⟨s, g⟩, assigned, written⟩ := of_given_bind h
  obtain ⟨rfl, -, given⟩ := Facts.of_assignment assigned
  cases given
  cases written
  exact ⟨⟨s, rfl⟩, rfl⟩

end Layered

end Cascade
