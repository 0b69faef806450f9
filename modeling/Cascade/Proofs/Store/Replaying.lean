-- SUMMARY: Replaying a log: what each name is left with, and when that makes no difference to the store or to what another log leads back to.
import Cascade.Proofs.Store.Holding

/-! # Replaying logs

A log is replayed from its newest entry to the oldest, so every name that it recorded
is left with what it held when it was written first. That changes nothing if it is what
the name holds, and makes no difference to a log that is replayed afterwards if that one
has recorded the name as well. -/

namespace Cascade

/-! ## What a log recorded -/

/-- What an entry says that a name of a map held. -/
def Entry.says? (e : Entry Slot) (slot : Slot) (name : String) : Option (Option Fact) :=
  match e.key with
  | .name s => if e.place = slot ∧ s = name then some e.previous else none
  | .other _ => none

/-- What the oldest of some entries says, the newest of which comes first. -/
def oldest? (entries : List (Entry Slot)) (slot : Slot) (name : String) :
    Option (Option Fact) :=
  entries.reverse.findSome? (·.says? slot name)

/-- What a log recorded of a name of a map, when it was written there first. -/
def Journal.before? (j : Journal Slot) (n : Nat) (slot : Slot) (name : String) :
    Option (Option Fact) :=
  oldest? (j.entries n) slot name

namespace Layered

variable {db db' rest start : Layered} {slot : Slot} {name : String} {n d m : Nat}

theorem cell?_undo (db : Layered) (e : Entry Slot) :
    (db.undo e).cell? slot (.name name)
      = (db.cell? slot (.name name)).map fun held => (e.says? slot name).getD held := by
  obtain ⟨place, key, previous⟩ := e
  rw [undo, cell?, mapAt?_modifyAt, cell?]
  cases db.mapAt? slot with
  | none => split <;> rfl
  | some facts =>
    cases key with
    | other datum => split <;> rfl
    | name s =>
      by_cases here : place = slot
      · by_cases same : s = name
        · simp [Entry.says?, here, same, Facts.at?, Facts.get?_assign]
        · simp [Entry.says?, here, same, Facts.at?, Facts.get?_assign]
      · simp [Entry.says?, here]

/-- A name is left with what the oldest entry says of it. -/
theorem cell?_foldl_undo (entries : List (Entry Slot)) (db : Layered) :
    (entries.foldl undo db).cell? slot (.name name)
      = (db.cell? slot (.name name)).map fun held => (oldest? entries slot name).getD held := by
  induction entries generalizing db with
  | nil => exact Option.map_id'.symm
  | cons e es ih =>
    rw [List.foldl_cons, ih, cell?_undo, Option.map_map, oldest?, oldest?, List.reverse_cons,
      List.findSome?_append]
    congr 1
    funext held
    cases es.reverse.findSome? (·.says? slot name) with
    | some content => rfl
    | none => cases h : e.says? slot name <;> simp [h]

/-- Undoing writes concerns neither numbers, births nor journals. -/
theorem serials_foldl_undo (entries : List (Entry Slot)) (db : Layered) :
    (entries.foldl undo db).serials = db.serials :=
  foldl_undo_keeps serials_modifyAt entries db

theorem births_foldl_undo (entries : List (Entry Slot)) (db : Layered) :
    (entries.foldl undo db).births = db.births :=
  foldl_undo_keeps (fun slot _ _ => by cases slot <;> rfl) entries db

theorem journal_foldl_undo (entries : List (Entry Slot)) (db : Layered) :
    (entries.foldl undo db).journal = db.journal :=
  foldl_undo_keeps journal_modifyAt entries db

theorem rolledBack_eq (db : Layered) (n : Nat) :
    db.rolledBack n
      = ((db.journal.entries n).foldl undo db).booked db.births (db.journal.clear n) := by
  have undone : db.rolledBack n
      = ((db.journal.entries n).foldl undo db).booked ((db.journal.entries n).foldl undo db).births
          (((db.journal.entries n).foldl undo db).journal.clear n) := rfl
  rw [undone, births_foldl_undo, journal_foldl_undo]

theorem cell?_booked (db : Layered) (b : Births) (j : Journal Slot) (key : Key) :
    (db.booked b j).cell? slot key = db.cell? slot key := by
  cases slot <;> rfl

/-- Only the open log is closed. -/
theorem closed_of_inactive (h : db.journal.active ≠ some n) : db.closed n = db := if_neg h

theorem entries_closed (db : Layered) : (db.closed n).journal.entries m = db.journal.entries m := by
  unfold closed
  split <;> rfl

/-- Restoring a checkpoint brings back what its log recorded first, in the maps that are
    still there. -/
theorem cell?_restored (db : Layered) (n : Nat) :
    ((db.closed n).rolledBack n).cell? slot (.name name)
      = (db.cell? slot (.name name)).map fun held =>
          (db.journal.before? n slot name).getD held := by
  have closed : (db.closed n).cell? slot (.name name) = db.cell? slot (.name name) := by
    unfold Layered.closed
    split
    · exact cell?_booked db db.births _ _
    · rfl
  rw [rolledBack_eq, cell?_booked, cell?_foldl_undo, closed, entries_closed]
  rfl

/-- The other logs stay. -/
theorem before?_restored (other : n ≠ d) :
    ((db.closed n).rolledBack n).journal.before? d slot name = db.journal.before? d slot name := by
  rw [Journal.before?, rolledBack_eq, journal_booked, Journal.entries_clear, if_neg other,
    entries_closed]
  rfl

/-- A map is told from others by the names in it. -/
theorem mapAt?_eq_iff : db.mapAt? slot = db'.mapAt? slot ↔
    ∀ name, db.cell? slot (.name name) = db'.cell? slot (.name name) := by
  constructor
  · intro same name
    rw [cell?, same]
    rfl
  · intro same
    have there := same ""
    simp only [cell?] at same there
    cases h : db.mapAt? slot with
    | none =>
      rw [h] at there
      exact (Option.map_eq_none_iff.mp there.symm).symm
    | some facts =>
      cases h' : db'.mapAt? slot with
      | none =>
        rw [h, h'] at there
        cases there
      | some facts' =>
        simp only [h, h', Option.map_some, Option.some.injEq] at same
        congr 1
        ext name : 1
        exact same name

/-! ## Replays that change nothing -/

/-- What a log would put back is there already. -/
def Settled (n : Nat) (db : Layered) : Prop :=
  ∀ slot name held before, db.cell? slot (.name name) = some held →
    db.journal.before? n slot name = some before → before = held

/-- What a log would put back is there already, or another log has recorded what was there
    before. -/
def Spares (n d : Nat) (db : Layered) : Prop :=
  ∀ slot name held before, db.cell? slot (.name name) = some held →
    db.journal.before? n slot name = some before →
      before = held ∨ (db.journal.before? d slot name).isSome

/-- Putting something back makes no difference exactly if it was there. -/
theorem map_getD_iff {cell first : Option (Option Fact)} :
    (cell.map fun held => first.getD held) = cell ↔
      ∀ held before, cell = some held → first = some before → before = held := by
  cases cell <;> cases first <;> simp

/-- It makes no difference to what is put back after it exactly if it was there or is
    put back itself. -/
theorem map_getD_getD_iff {cell first second : Option (Option Fact)} :
    (cell.map fun held => second.getD (first.getD held))
        = (cell.map fun held => second.getD held) ↔
      ∀ held before, cell = some held → first = some before → before = held ∨ second.isSome := by
  cases cell <;> cases first <;> cases second <;> simp

/-- Restoring a checkpoint changes no map exactly if its log is settled. -/
theorem restored_unaltered_iff :
    (∀ slot, ((db.closed n).rolledBack n).mapAt? slot = db.mapAt? slot) ↔ db.Settled n := by
  simp only [mapAt?_eq_iff, cell?_restored, map_getD_iff]
  rfl

/-- Restoring another checkpoint before makes no difference to what restoring one leads to
    exactly if the log of the other one spares its log. -/
theorem restored_restored_iff (other : n ≠ d) :
    (∀ slot, ((((db.closed n).rolledBack n).closed d).rolledBack d).mapAt? slot
        = ((db.closed d).rolledBack d).mapAt? slot) ↔ db.Spares n d := by
  simp only [mapAt?_eq_iff, cell?_restored, before?_restored other, Option.map_map,
    Function.comp_def, map_getD_getD_iff]
  rfl

/-- What a log is spared by makes no difference to what it leads back to. -/
theorem foldl_undo_spared {m d : Nat} (spares : db.Spares m d) :
    (db.journal.entries d).foldl undo ((db.journal.entries m).foldl undo db)
      = (db.journal.entries d).foldl undo db := by
  have maps (slot : Slot) :
      ((db.journal.entries d).foldl undo ((db.journal.entries m).foldl undo db)).mapAt? slot
        = ((db.journal.entries d).foldl undo db).mapAt? slot := by
    refine mapAt?_eq_iff.mpr fun name => ?_
    rw [cell?_foldl_undo, cell?_foldl_undo, cell?_foldl_undo, Option.map_map]
    exact map_getD_getD_iff.mpr (spares slot name)
  have agree : Agree .univ
      ((db.journal.entries d).foldl undo ((db.journal.entries m).foldl undo db))
      ((db.journal.entries d).foldl undo db) :=
    { frames := by simp only [frames_foldl_undo]
      serials := by simp only [serials_foldl_undo]
      active := by simp only [journal_foldl_undo]
      cells := fun key _ slot => by rw [cell?, cell?, maps]
      births := by simp only [births_foldl_undo, implies_true] }
  exact agree.eq (by simp only [journal_foldl_undo])

end Layered

end Cascade
