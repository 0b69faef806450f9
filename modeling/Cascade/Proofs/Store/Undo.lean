-- SUMMARY: Undoing writes: a store since a checkpoint, and how replaying its open log brings every layer back to what it held then.
import Mathlib.Data.List.Nodup
import Mathlib.Logic.Relation
import Cascade.Store.Scopes

/-! # Undoing writes

A write puts what its key held before into the open log, so undoing the newest
entry takes back the newest write. What has to be kept in mind along a run of
writes is therefore one equation (`Recording`): the store, undone entry by
entry, is the store of the checkpoint. -/

namespace Cascade

namespace Facts

/-- Assigning what a key meant before takes an assignment back. -/
theorem assign_assign (m : Facts) (key : Key) (content : Option Fact) :
    (m.assign key content).assign key (m.at? key) = m := by
  cases key with
  | name s =>
    ext other : 1
    rw [get?_assign, get?_assign]
    split
    · rename_i h
      rw [← h, at?]
    · rfl
  | other d => rfl

end Facts

/-- What is recorded has no part in which log takes the writes. -/
theorem Journal.active_record {ι : Type} {j : Journal ι} (e : Entry ι) :
    (j.record e).active = j.active := by
  unfold record
  split <;> rfl

namespace Layered

/-! ## One layer -/

/-- No two layers have one serial number. -/
theorem serials_nodup (db : Layered) : (db.layers.map (·.serial)).Nodup :=
  (List.pairwise_cons.mp db.descending).2.imp fun h => (Nat.ne_of_lt h).symm

theorem factsAt_of_mem {db : Layered} {l : Layer} (h : l ∈ db.layers) :
    db.factsAt (.layer l.serial) = l.facts := by
  have found : (db.layers.find? (·.serial = l.serial)).isSome :=
    List.find?_isSome.mpr ⟨l, h, by simp⟩
  obtain ⟨l', hl'⟩ := Option.isSome_iff_exists.mp found
  have same : l'.serial = l.serial := by simpa using List.find?_some hl'
  have heq : l' = l :=
    List.inj_on_of_nodup_map db.serials_nodup (List.mem_of_find?_eq_some hl') h same
  simp [factsAt, hl', heq]

/-- A layer whose facts a change leaves alone is left alone. -/
theorem modify_of_fixed {f : Facts → Facts} {n : Nat} {l : Layer}
    (h : l.serial = n → f l.facts = l.facts) : l.modify n f = l := by
  unfold Layer.modify
  split
  · rename_i hn
    rw [h hn]
  · rfl

theorem modify_modify (n : Nat) (f g : Facts → Facts) (l : Layer) :
    (l.modify n g).modify n f = l.modify n (f ∘ g) := by
  by_cases h : l.serial = n <;> simp [Layer.modify, h]

theorem modifyAt_modifyAt (slot : Slot) (f g : Facts → Facts) (db : Layered) :
    (db.modifyAt slot g).modifyAt slot f = db.modifyAt slot (f ∘ g) := by
  cases slot with
  | global => rfl
  | layer n => simp [modifyAt, modify_modify, Function.comp_def]

/-- A store is left alone by a change that leaves the facts of its slot alone. -/
theorem modifyAt_of_fixed {db : Layered} {slot : Slot} {f : Facts → Facts}
    (h : f (db.factsAt slot) = db.factsAt slot) : db.modifyAt slot f = db := by
  cases slot with
  | global =>
    have h : f db.global = db.global := h
    simp [modifyAt, h]
  | layer n =>
    -- no other layer has this number, so the facts of the slot are all that `f` is applied to
    have fixed : ∀ l ∈ db.layers, l.modify n f = l := by
      intro l hl
      apply modify_of_fixed
      rintro rfl
      rw [← factsAt_of_mem hl]
      exact h
    have inner : db.inner.modify n f = db.inner := fixed _ (List.mem_cons_self ..)
    have outer : db.outer.map (·.modify n f) = db.outer :=
      (List.map_congr_left fun l hl => fixed l (List.mem_cons_of_mem _ hl)).trans
        (List.map_id _)
    simp [modifyAt, inner, outer]

/-! ## One write -/

/-- The same layers with other births and another journal. -/
def booked (births : Births) (journal : Journal Slot) (db : Layered) : Layered :=
  { db with births, journal }

/-- A store whose layers are those of another one is that one, but for births
    and journal. -/
@[simp]
theorem booked_self (db : Layered) : db.booked db.births db.journal = db := rfl

@[simp]
theorem booked_booked (db : Layered) (b b' : Births) (j j' : Journal Slot) :
    (db.booked b j).booked b' j' = db.booked b' j' := rfl

@[simp]
theorem births_booked (db : Layered) (b : Births) (j : Journal Slot) :
    (db.booked b j).births = b := rfl

@[simp]
theorem journal_booked (db : Layered) (b : Births) (j : Journal Slot) :
    (db.booked b j).journal = j := rfl

/-- Births and journal have no part in a change of a slot. -/
theorem modifyAt_booked (slot : Slot) (f : Facts → Facts) (db : Layered) (b : Births)
    (j : Journal Slot) : (db.booked b j).modifyAt slot f = (db.modifyAt slot f).booked b j := by
  cases slot <;> rfl

/-- Births and journal have no part in undoing writes. -/
theorem foldl_undo_booked (entries : List (Entry Slot)) (db : Layered) (b : Births)
    (j : Journal Slot) : entries.foldl undo (db.booked b j) = (entries.foldl undo db).booked b j := by
  induction entries generalizing db with
  | nil => rfl
  | cons e es ih =>
    rw [List.foldl_cons, List.foldl_cons, ← ih, undo, undo, modifyAt_booked]

/-- What a write puts into the open log. -/
def entryOf (slot : Slot) (key : Key) (db : Layered) : Entry Slot :=
  ⟨slot, key, (db.factsAt slot).at? key⟩

theorem journal_modifyAt (slot : Slot) (f : Facts → Facts) (db : Layered) :
    (db.modifyAt slot f).journal = db.journal := by
  cases slot <;> rfl

/-- A write changes one slot and books that. -/
theorem write_eq (db : Layered) (slot : Slot) (key : Key) (content : Option Fact) :
    db.write slot key content
      = (db.modifyAt slot (·.assign key (db.births.settle key content))).booked
          (db.births.after key content) (db.journal.record (db.entryOf slot key)) := by
  rw [← journal_modifyAt slot (·.assign key (db.births.settle key content)) db]
  rfl

@[simp]
theorem births_write (db : Layered) (slot : Slot) (key : Key) (content : Option Fact) :
    (db.write slot key content).births = db.births.after key content := rfl

@[simp]
theorem journal_write (db : Layered) (slot : Slot) (key : Key) (content : Option Fact) :
    (db.write slot key content).journal = db.journal.record (db.entryOf slot key) := by
  rw [write_eq, journal_booked]

/-- Undoing a write leaves nothing of it but the births and the log. -/
theorem undo_write (db : Layered) (slot : Slot) (key : Key) (content : Option Fact) :
    (db.write slot key content).undo (db.entryOf slot key)
      = db.booked (db.births.after key content)
          (db.journal.record (db.entryOf slot key)) := by
  rw [write_eq, undo, modifyAt_booked, entryOf, modifyAt_modifyAt, modifyAt_of_fixed]
  exact Facts.assign_assign (db.factsAt slot) key _

/-- One write of one key. -/
def Written (db db' : Layered) : Prop :=
  ∃ slot key content, db' = db.write slot key content

/-- Nothing is recorded while no log is open. -/
theorem journal_of_writes {db db' : Layered} (steps : Relation.ReflTransGen Written db db')
    (idle : db.journal.active = none) : db'.journal = db.journal := by
  induction steps with
  | refl => rfl
  | tail _ step ih =>
    obtain ⟨slot, key, content, rfl⟩ := step
    rw [journal_write, ih, Journal.record, idle]

/-! ## A store since a checkpoint -/

/-- A store since a checkpoint on another one: the log of the checkpoint is
    open, and replaying it gives the layers of the checkpoint. -/
structure Recording (start db : Layered) : Prop where
  isOpen : db.journal.active = some start.journal.next
  undone : ∃ entries, db.journal.logs = start.journal.logs ++ [entries] ∧
    entries.foldl undo db = start.booked db.births db.journal

/-- The store as a checkpoint leaves it. -/
def checkpointed (db : Layered) : Layered :=
  { db with journal := db.journal.extend.activate (some db.journal.next) }

/-- A checkpoint can be opened if none is open. -/
theorem checkpoint_of_idle {db : Layered} (idle : db.journal.active = none) :
    checkpoint.on db = (.ok db.journal.next, db.checkpointed) := by
  simp only [checkpoint, Attempt.on_bind, Attempt.on_get, idle]
  rfl

/-- It is refused if one is. -/
theorem checkpoint_of_open {db : Layered} (isOpen : db.journal.active.isSome) :
    checkpoint.on db = (.error .checkpointOpen, db) := by
  simp only [checkpoint, Attempt.on_bind, Attempt.on_get, isOpen, if_true, Attempt.on_throw]

theorem recording_checkpointed (db : Layered) : Recording db db.checkpointed where
  isOpen := rfl
  undone := ⟨[], rfl, rfl⟩

/-- Changing the last of some logs leaves the others. -/
theorem modify_last {α : Type} (f : α → α) (xs : List α) (x : α) :
    (xs ++ [x]).modify xs.length f = xs ++ [f x] := by
  induction xs with
  | nil => rfl
  | cons y ys ih => simp [ih]

/-- The log of a checkpoint is the last one, so an entry goes to its head. -/
theorem logs_record {start db : Layered} (h : db.journal.active = some start.journal.next)
    {entries : List (Entry Slot)} (hl : db.journal.logs = start.journal.logs ++ [entries])
    (e : Entry Slot) :
    (db.journal.record e).logs = start.journal.logs ++ [e :: entries] := by
  simp only [Journal.record, h, hl, Journal.next]
  exact modify_last _ _ _

/-- The last log is found under the number of the logs before it. -/
theorem entries_last {j : Journal Slot} {logs : List (List (Entry Slot))}
    {entries : List (Entry Slot)} (h : j.logs = logs ++ [entries]) :
    j.entries logs.length = entries := by
  simp [Journal.entries, h]

/-- A write is undone first, and the writes before it then. -/
theorem Recording.written {start db db' : Layered} (h : Recording start db)
    (step : Written db db') : Recording start db' := by
  obtain ⟨slot, key, content, rfl⟩ := step
  obtain ⟨entries, hl, hu⟩ := h.undone
  refine ⟨?_, db.entryOf slot key :: entries, ?_, ?_⟩
  · simp [Journal.record, h.isOpen]
  · rw [journal_write]
    exact logs_record h.isOpen hl _
  · rw [List.foldl_cons, undo_write, foldl_undo_booked, hu]
    simp

theorem Recording.writes {start db db' : Layered} (h : Recording start db)
    (steps : Relation.ReflTransGen Written db db') : Recording start db' := by
  induction steps with
  | refl => exact h
  | tail _ step ih => exact ih.written step

/-- Ending the recording changes nothing else. -/
theorem Recording.closed_eq {start db : Layered} (h : Recording start db) :
    db.closed start.journal.next = db.booked db.births (db.journal.activate none) := by
  rw [closed, if_pos h.isOpen]
  rfl

/-- Committing the checkpoint and forgetting its log leaves the journal as it was
    before the checkpoint. -/
theorem Recording.committed {start db : Layered} (h : Recording start db)
    (idle : start.journal.active = none) :
    (db.closed start.journal.next).booked (db.closed start.journal.next).births
      (db.closed start.journal.next).journal.shrink = db.booked db.births start.journal := by
  obtain ⟨entries, hl, -⟩ := h.undone
  have forgotten : (db.journal.activate none).shrink = start.journal := by
    simp only [Journal.activate, Journal.shrink, hl, List.dropLast_concat, ← idle]
  rw [h.closed_eq, births_booked, journal_booked, forgotten, booked_booked]

/-- Restoring the checkpoint brings its layers back and leaves an empty log. -/
theorem Recording.restored {start db : Layered} (h : Recording start db) :
    (db.closed start.journal.next).rolledBack start.journal.next
      = start.booked db.births ⟨start.journal.logs ++ [[]], none⟩ := by
  obtain ⟨entries, hl, hu⟩ := h.undone
  have found : (db.journal.activate none).entries start.journal.next = entries :=
    entries_last hl
  have emptied : (db.journal.activate none).clear start.journal.next
      = ⟨start.journal.logs ++ [[]], none⟩ := by
    simp only [Journal.clear, Journal.activate, Journal.next, hl]
    rw [modify_last]
  have undone : entries.foldl undo (db.booked db.births (db.journal.activate none))
      = start.booked db.births (db.journal.activate none) := by
    rw [foldl_undo_booked, hu, booked_booked]
  rw [h.closed_eq, rolledBack, journal_booked, found, undone, ← emptied]
  rfl

/-- Restoring the checkpoint and the births, committing it after that and
    forgetting its log gives the store of the checkpoint. -/
theorem Recording.abandoned {start db : Layered} (h : Recording start db)
    (idle : start.journal.active = none) :
    let back := (db.closed start.journal.next).rolledBack start.journal.next
    let ended := (back.booked start.births back.journal).closed start.journal.next
    ended.booked ended.births ended.journal.shrink = start := by
  have emptied : (Journal.shrink ⟨start.journal.logs ++ [[]], none⟩) = start.journal := by
    simp only [Journal.shrink, List.dropLast_concat, ← idle]
  have inactive : (start.booked start.births ⟨start.journal.logs ++ [[]], none⟩).closed
      start.journal.next = start.booked start.births ⟨start.journal.logs ++ [[]], none⟩ :=
    if_neg nofun
  simp only [h.restored, booked_booked, journal_booked, inactive, births_booked, emptied,
    booked_self]

end Layered

end Cascade
