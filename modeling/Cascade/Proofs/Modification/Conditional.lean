-- SUMMARY: Conditional writes: the answer of the store's own one is exact in each map, and a modification that sets a constant is silent once it has been applied.
import Cascade.Proofs.Engine.Kinds
import Cascade.Proofs.Engine.Rewrites
import Cascade.Store.Command

/-! # Conditional writes

The store's own conditional write asks about its key first, a local one what the
key reads as, a global one what the global map holds, and before it writes it
looks into the map itself. The second look finds nothing that the first one
missed, because the innermost layer is never covered. So there is one question,
and the answer tells exactly whether what was asked about is another thing
afterwards.

A conditional modification asks what the key reads as wherever it goes to, and
widens an integer by that before it asks. Still a constant comes to rest with one
application (`Rested`): what was widened once is widened in the same way again,
and what is found neither among the visible facts nor where it is written to was
written. -/

namespace Cascade

open Attempt

namespace Layered

variable {db : Layered} {s : String} {f : Fact} {name : LayerName}

/-! ## One question -/

/-- A value that is a fact is written as that fact. -/
theorem setIfChanged_toFact {value : Datum} (given : value.toFact = .ok f) (key : Key)
    (layer : LayerRef) : setIfChanged key value layer = setIfChanged key (.fact f) layer := by
  have same : value.toFact = (Datum.fact f).toFact := given
  unfold setIfChanged Place.setIfChanged
  rw [same]

/-- The store's own conditional write returns, and has written if it did not find
    the fact where it asks. -/
theorem setIfChanged_on (filled : s ≠ "") (f : Fact) (name : LayerName) (db : Layered) :
    (setIfChanged (.name s) (.fact f) (.named name)).on db
      = if Fact.isSame? (db.asked (.name s) name) f then (.ok false, db)
        else (.ok true, db.write (name.slot db) (.name s) (some f)) := by
  cases found : Fact.isSame? (db.asked (.name s) name) f with
  | true => exact setIfChanged_found rfl found
  | false =>
    have absent : Fact.isSame? ((db.factsAt (name.slot db)).at? (.name s)) f = false :=
      Bool.eq_false_iff.mpr fun there => Bool.false_ne_true (found ▸ asked_of_found there)
    have given : (ofExcept (Datum.fact f).toFact).on db = (.ok f, db) := rfl
    have writes : ((place (name.slot db)).setIfChanged (.name s) (.fact f)).on db
        = (.ok true, db.write (name.slot db) (.name s) (some f)) :=
      ((place (name.slot db)).setIfChanged_named filled f db).trans
        (if_neg (Bool.eq_false_iff.mp absent))
    cases name with
    | global => exact writes
    | inner =>
      have reads : (reading (·.read (.name s))).on db = (.ok (db.visible? (.name s)), db) := rfl
      have found : Fact.isSame? (db.visible? (.name s)) f = false := found
      rw [setIfChanged, bind_of_ok reads, bind_of_ok given, found]
      exact writes

/-! ## The answer -/

/-- What is written is what is found where the write asked. -/
theorem asked_write (db : Layered) (s : String) (f : Fact) (name : LayerName) :
    (db.write (name.slot db) (.name s) (some f)).asked (.name s) name
      = db.births.settle (.name s) (some f) := by
  have written := at?_write db name s (some f)
  cases name with
  | global => exact written
  | inner =>
    have sameSlot : (db.write (LayerName.inner.slot db) (.name s) (some f)).innerSlot
        = LayerName.inner.slot db := by
      rw [innerSlot, LayerName.slot, (db.write_inner (.name s) (some f)).1]
      rfl
    obtain ⟨g, settled, -⟩ := db.births.settle_some (.name s) f
    rw [settled] at written ⊢
    refine visible?_of_inner ?_
    rw [sameSlot]
    exact written

/-- The answer tells whether what was asked about is another thing afterwards, and
    the fact is found there. -/
theorem setIfChanged_asked (filled : s ≠ "") (born : f ≠ .indeterminate none)
    (name : LayerName) (db : Layered) :
    ∃ changed db', (setIfChanged (.name s) (.fact f) (.named name)).on db = (.ok changed, db') ∧
      changed = !Fact.sameContent (db.asked (.name s) name) (db'.asked (.name s) name) ∧
      Fact.isSame? (db'.asked (.name s) name) f = true ∧
      db' = if changed then db.write (name.slot db) (.name s) (some f) else db := by
  rw [setIfChanged_on filled]
  cases found : Fact.isSame? (db.asked (.name s) name) f with
  | true =>
    refine ⟨false, db, rfl, ?_, found, rfl⟩
    cases held : db.asked (.name s) name with
    | none =>
      rw [held] at found
      cases found
    | some g =>
      -- a fact that is equal to something was born
      have bornToo : g ≠ .indeterminate none := by
        rintro rfl
        rw [held] at found
        cases f <;> cases found
      have self : Fact.sameContent (some g) (some g) = true := Fact.same_self bornToo
      rw [self]
      rfl
  | false =>
    have after := (asked_write db s f name).trans (db.births.settle_of_born born)
    refine ⟨true, _, rfl, ?_, ?_, rfl⟩
    · have differs : Fact.sameContent (db.asked (.name s) name) (some f) = false := found
      rw [after, differs]
      rfl
    · rw [after]
      exact Fact.same_self born

/-- A conditional write to a name returns whether what it asked about has changed,
    whatever covers what: a local one whether the name reads as something else
    now, a global one whether the global map holds something else now. The value
    is found there then, under no other name anything has changed, and where
    nothing has changed nothing was touched: a local write leaves all maps but the
    innermost one alone, a global one all layers. The two ways in which a global
    one is called come to the same command. -/
theorem setIfChanged_exact {value : Datum} (filled : s ≠ "") (given : value.toFact = .ok f)
    (born : f ≠ .indeterminate none) (db : Layered) :
    (∃ changed db', (setIfChanged (.name s) value (.named .inner)).on db = (.ok changed, db') ∧
      changed = !Fact.sameContent (db.visible? (.name s)) (db'.visible? (.name s)) ∧
      Fact.isSame? (db'.visible? (.name s)) f = true ∧
      (changed = false → db' = db) ∧
      (∀ other, other ≠ .name s → db'.visible? other = db.visible? other) ∧
      db'.global = db.global ∧ db'.outer = db.outer ∧ db'.frames = db.frames) ∧
    (∃ changed db', (setIfChanged (.name s) value (.named .global)).on db = (.ok changed, db') ∧
      changed = !Fact.sameContent (db.global.get? s) (db'.global.get? s) ∧
      Fact.isSame? (db'.global.get? s) f = true ∧
      (changed = false → db' = db) ∧
      (∀ other, other ≠ s → db'.global.get? other = db.global.get? other) ∧
      db'.layers = db.layers) ∧
    ∀ key value : Document,
      Operation.resolve Command.table ⟨"set_global_if_changed", [key, value], []⟩
        = Operation.resolve Command.table
            ⟨"set_if_changed", [key, value, .str LayerName.global.text], []⟩ := by
  rw [setIfChanged_toFact given, setIfChanged_toFact given]
  refine ⟨?_, ?_, ?_⟩
  · obtain ⟨changed, db', returns, exact, found, left⟩ := setIfChanged_asked filled born .inner db
    refine ⟨changed, db', returns, exact, found, ?_⟩
    cases changed with
    | false =>
      obtain rfl : db' = db := left
      exact ⟨fun _ => rfl, fun _ _ => rfl, rfl, rfl, rfl⟩
    | true =>
      obtain rfl : db' = db.write db.innerSlot (.name s) (some f) := left
      obtain ⟨-, outer, global⟩ := db.write_inner (.name s) (some f)
      refine ⟨nofun, fun other apart => ?_, global, outer, Agree.frames_write ..⟩
      obtain same | ⟨named, -⟩ := visible?_write .inner db (.name s) f other
      · exact same
      · exact absurd named apart
  · obtain ⟨changed, db', returns, exact, found, left⟩ := setIfChanged_asked filled born .global db
    refine ⟨changed, db', returns, exact, found, ?_⟩
    cases changed with
    | false =>
      obtain rfl : db' = db := left
      exact ⟨fun _ => rfl, fun _ _ => rfl, rfl⟩
    | true =>
      obtain rfl : db' = db.write .global (.name s) (some f) := left
      obtain ⟨layers, global⟩ := db.write_global (.name s) (some f)
      refine ⟨nofun, fun other apart => ?_, layers⟩
      rw [global, Facts.get?_assign, if_neg (Ne.symm apart)]
  · intro key value
    unfold Operation.resolve Call.arguments
    simp only [List.mapM_cons, List.mapM_nil]
    cases Datum.ofDocument key with
    | error e => rfl
    | ok k =>
      cases Datum.ofDocument value with
      | error e => rfl
      | ok v => rfl

end Layered

namespace Modification

open Layered

namespace Chest

/-- Where a layer says seven over a five, seven is there already for a local write
    and new to a global one. -/
theorem seven_under_seven :
    (Layered.setIfChanged (.name "gold") (.fact (.int 7)) (.named .inner)).on (chest (.int 7))
        = (.ok false, chest (.int 7)) ∧
      ∃ db', (Layered.setIfChanged (.name "gold") (.fact (.int 7)) (.named .global)).on
          (chest (.int 7)) = (.ok true, db') ∧
        Fact.isSame? (db'.global.get? "gold") (.int 7) = true ∧
        db'.layers = (chest (.int 7)).layers := by
  have filled : "gold" ≠ "" := by decide
  have given : (Datum.fact (.int 7)).toFact = .ok (.int 7) := rfl
  obtain ⟨⟨changed, db', returns, -, -, kept, -⟩,
      ⟨changed₂, db₂, returns₂, -, found, -, -, layers⟩, -⟩ :=
    setIfChanged_exact filled given nofun (chest (.int 7))
  obtain rfl : changed = false := Except.ok.inj (congrArg Prod.fst returns).symm
  obtain rfl : changed₂ = true := Except.ok.inj (congrArg Prod.fst returns₂).symm
  rw [kept rfl] at returns
  exact ⟨returns, db₂, returns₂, found, layers⟩

end Chest

/-! ## Constants that are set again -/

/-- What was written over a visible fact is written again over itself: an integer
    that was made a float is made the same one. -/
theorem assignable_again {key : Key} {visible : Option Fact} {new f : Fact}
    (h : Fact.assignable key visible new = .ok f) : Fact.assignable key (some f) new = .ok f := by
  obtain ⟨rfl, -⟩ | ⟨g, n, x, -, -, rfl, wide, rfl⟩ := Fact.of_assignable h
  · exact if_pos rfl
  · simp [Fact.assignable, Fact.kind, Fact.ofKind, wide]

/-- No integer is made a fact that waits for its birth. -/
theorem born_of_assignable {key : Key} {visible : Option Fact} {new f : Fact}
    (born : new ≠ .indeterminate none) (h : Fact.assignable key visible new = .ok f) :
    f ≠ .indeterminate none := by
  obtain ⟨rfl, -⟩ | ⟨g, n, x, -, -, -, -, rfl⟩ := Fact.of_assignable h
  · exact born
  · exact nofun

/-- A constant, as it is written, has come to rest in a store: it is what the key
    reads as, or it is found where the write would ask. -/
structure Rested (m : Modification) (default : LayerRef) (constant f : Fact) (db : Layered) :
    Prop where
  scalar : m.key.toDatum.isScalar = true
  accepted : Fact.assignable m.key (db.visible? m.key) constant = .ok f
  found : Fact.isSame? (db.visible? m.key) f = true ∨
    ∃ name, m.target default = .named name ∧ Fact.isSame? (db.asked m.key name) f = true

variable {m : Modification} {default : LayerRef} {constant f : Fact} {outputs : List Document}
  {db db' : Layered} {changed : Bool}

/-- Where its constant has come to rest, a modification does nothing. -/
theorem Rested.silent (h : Rested m default constant f db)
    (conditional : m.effect = .setIfChanged (.constant constant) outputs) (look : Lookup) :
    (m.apply look default).on db = (.ok false, db) := by
  have reads : db.read m.key = .ok (db.visible? m.key) := if_pos h.scalar
  rw [conditional_on conditional rfl reads h.accepted]
  split
  · rfl
  · rename_i other
    obtain found | ⟨name, goes, found⟩ := h.found
    · exact absurd found other
    · rw [goes]
      exact setIfChanged_found h.scalar found

/-- One application that succeeds brings the constant to rest, whatever covers the
    key and whatever its kind was. -/
theorem rested_of_applied (conditional : m.effect = .setIfChanged (.constant constant) outputs)
    (born : constant ≠ .indeterminate none) {look : Lookup}
    (first : (m.apply look default).on db = (.ok changed, db')) :
    ∃ f, Rested m default constant f db' := by
  rw [apply, conditional] at first
  obtain ⟨_, resolved, first⟩ := of_reading_bind first
  cases resolved
  obtain ⟨visible, read, first⟩ := of_reading_bind first
  obtain ⟨scalar, rfl⟩ := of_read read
  obtain ⟨f, accepted, first⟩ := of_given_bind first
  have bornToo := born_of_assignable born accepted
  refine ⟨f, ?_⟩
  split at first
  · rename_i found
    obtain ⟨-, rfl⟩ := of_pure_ok first
    exact ⟨scalar, accepted, .inl found⟩
  · obtain ⟨name, goes, ⟨found, -, rfl⟩ | ⟨-, -, s, given, rfl⟩⟩ := of_setIfChanged first
    · exact ⟨scalar, accepted, .inr ⟨name, goes, found⟩⟩
    · refine ⟨scalar, ?_, .inr ⟨name, goes, ?_⟩⟩ <;> rw [given]
      · obtain same | ⟨-, visible⟩ := visible?_write name db (.name s) f (.name s)
        · rw [same, ← given]
          exact accepted
        · rw [visible, db.births.settle_of_born bornToo, ← given]
          exact assignable_again accepted
      · rw [asked_write, db.births.settle_of_born bornToo]
        exact Fact.same_self bornToo

/-- Once a conditional modification that sets a constant has succeeded, applying it
    again succeeds each time, whatever it is triggered by: it answers that nothing
    has changed, puts out nothing, and leaves the store with its layers and its
    logs as it is. -/
theorem reasserted_silent (conditional : m.effect = .setIfChanged (.constant constant) outputs)
    (born : constant ≠ .indeterminate none) {look : Lookup}
    (first : (m.apply look default).on db = (.ok changed, db')) (later : List Lookup) :
    (later.mapM fun look => do
        let changed ← m.apply look default
        return (changed, m.outputs changed)).on db'
      = (.ok (later.map fun _ => (false, [])), db') := by
  obtain ⟨f, rested⟩ := rested_of_applied conditional born first
  have quiet : m.outputs false = [] := by
    rw [Modification.outputs, conditional]
    rfl
  -- on the applications: each leaves the constant at rest for the next one
  induction later with
  | nil => rfl
  | cons next rest ih =>
    rw [List.mapM_cons]
    have silent : (do
        let changed ← m.apply next default
        return (changed, m.outputs changed)).on db' = (.ok (false, []), db') := by
      rw [bind_of_ok (rested.silent conditional next), quiet]
      rfl
    rw [bind_of_ok silent, bind_of_ok ih]
    rfl

namespace Chest

/-- Under a layer that holds a piece and a half, three pieces go to the global map
    as a float the first time, and the second and third time they are found
    there. -/
theorem three_again :
    ∃ db', ((correct (.int 3)).apply Layered.read (.named .inner)).on (chest (.float 1.5))
        = (.ok true, db') ∧
      Option.map Fact.kind (db'.global.get? "gold") = some .float ∧
      ([Layered.read, Layered.read].mapM fun look => do
          let changed ← (correct (.int 3)).apply look (.named .inner)
          return (changed, (correct (.int 3)).outputs changed)).on db'
        = (.ok [(false, []), (false, [])], db') := by
  have succeeds : (((correct (.int 3)).apply Layered.read (.named .inner)).on
      (chest (.float 1.5))).1.toOption = some true := by decide +kernel
  have float : Option.map Fact.kind ((((correct (.int 3)).apply Layered.read
      (.named .inner)).on (chest (.float 1.5))).2.global.get? "gold") = some .float := by
    decide +kernel
  rcases first : ((correct (.int 3)).apply Layered.read (.named .inner)).on (chest (.float 1.5))
    with ⟨fault | changed, db'⟩
  · rw [first] at succeeds
    cases succeeds
  · rw [first] at succeeds float
    obtain rfl : changed = true := Option.some.inj succeeds
    have born : Fact.int 3 ≠ .indeterminate none := nofun
    exact ⟨db', rfl, float, reasserted_silent rfl born first [Layered.read, Layered.read]⟩

end Chest

end Modification

end Cascade
