-- SUMMARY: Facts brought from the innermost layer to the global map: what every layer holds then, and which keys read as before.
import Cascade.Proofs.Store.Failing

/-! # Facts that are brought to the global map

A fact of the innermost layer can be copied to the global map or moved there. A
copy changes nothing for a reader, as the innermost layer goes on covering the
global map. What is moved is no longer in the innermost layer, so the layers
between the two have their say: the nearest of them that has the key decides what
it reads as, and only if there is none it is the fact that was moved. -/

namespace Cascade

open Attempt

/-- A key may be made to mean what it does. -/
theorem Facts.assign_at? (m : Facts) (key : Key) : m.assign key (m.at? key) = m := by
  cases key with
  | other d => rfl
  | name s =>
    ext name : 1
    rw [Facts.get?_assign]
    split
    · rename_i same
      rw [← same]
      rfl
    · rfl

namespace Layered

variable {db db' : Layered} {key : Key}

/-! ## Reading below the innermost layer -/

/-- What the nearest layer under the innermost one says about a key, if one of them
    has it. -/
def covered? (db : Layered) (key : Key) : Option Fact := db.outer.findSome? (·.facts.at? key)

/-- The innermost layer is asked first, then the ones under it, the global map last. -/
theorem visible?_eq_or (db : Layered) (key : Key) :
    db.visible? key
      = (db.inner.facts.at? key).or ((db.covered? key).or (db.global.at? key)) := by
  rw [visible?, layers, List.findSome?_cons]
  cases db.inner.facts.at? key <;> rfl

theorem read_congr (h : db'.visible? key = db.visible? key) : db'.read key = db.read key := by
  rw [Layered.read, Layered.read, h]

/-- The innermost layer is told from the others by its number. -/
theorem modify_outer (db : Layered) (f : Facts → Facts) :
    db.outer.map (·.modify db.inner.serial f) = db.outer := by
  have below := (List.pairwise_cons.mp (List.pairwise_cons.mp db.descending).2).1
  refine (List.map_congr_left fun l hl => modify_of_fixed fun same => ?_).trans (List.map_id _)
  have lower := below l.serial (List.mem_map_of_mem hl)
  rw [same] at lower
  exact absurd lower (Nat.lt_irrefl _)

theorem factsAt_inner (db : Layered) :
    db.factsAt (LayerName.inner.slot db) = db.inner.facts :=
  factsAt_of_mem (List.mem_cons_self ..)

/-! ## Bringing up -/

/-- A fact of the innermost layer has been brought to the global map, which means by
    the key what the key read as; the layers under the innermost one are as they
    were. -/
structure Raised (key : Key) (db db' : Layered) : Prop where
  held : ∃ f, db.inner.facts.at? key = some f
  global : db'.global = db.global.assign key (db.visible? key)
  outer : db'.outer = db.outer

namespace Raised

/-- A key that means nothing new to the innermost layer reads as before. -/
theorem read_other (h : Raised key db db') {other : Key} (ne : other ≠ key)
    (inner : db'.inner.facts.at? other = db.inner.facts.at? other) :
    db'.read other = db.read other := by
  refine read_congr ?_
  have covered : db'.covered? other = db.covered? other := by
    rw [covered?, h.outer]
    rfl
  have global : db'.global.at? other = db.global.at? other := by
    rw [h.global, Facts.at?_assign, Facts.overwritten_of_ne ne, id]
  rw [visible?_eq_or, visible?_eq_or, inner, covered, global]

end Raised

/-! ## Courses -/

/-- What a copy that answers has done. -/
theorem of_copy {copied : Bool} (h : (copy key).on db = (.ok copied, db')) :
    match db.inner.facts.at? key with
    | none => copied = false ∧ db' = db
    | some f => copied = true ∧ (∃ s, key = .name s) ∧ db' = db.write .global key (some f) := by
  obtain ⟨name, named, h⟩ := of_target_bind h
  cases named
  have h := of_get_bind h
  rw [factsAt_inner] at h
  cases held : db.inner.facts.at? key with
  | none =>
    rw [held] at h
    obtain ⟨rfl, rfl⟩ := of_pure_ok h
    exact ⟨rfl, rfl⟩
  | some f =>
    rw [held] at h
    obtain ⟨⟨⟩, _, put, h⟩ := of_bind_ok h
    obtain ⟨rfl, rfl⟩ := of_pure_ok h
    exact ⟨rfl, of_set put⟩

/-- What a move that answers has done: the key was taken away before the fact was put
    into the global map. -/
theorem of_promote {moved : Bool} (h : (promote key).on db = (.ok moved, db')) :
    match db.inner.facts.at? key with
    | none => moved = false ∧ db' = db.write db.innerSlot key none
    | some f => moved = true ∧ (∃ s, key = .name s) ∧
        db' = (db.write db.innerSlot key none).write .global key (some f) := by
  obtain ⟨name, named, h⟩ := of_target_bind h
  cases named
  obtain ⟨stored, _, taken, h⟩ := of_bind_ok h
  have taken := of_get_bind taken
  rw [factsAt_inner] at taken
  cases taken
  cases held : db.inner.facts.at? key with
  | none =>
    rw [held] at h
    obtain ⟨rfl, rfl⟩ := of_pure_ok h
    exact ⟨rfl, rfl⟩
  | some f =>
    rw [held] at h
    obtain ⟨⟨⟩, _, put, h⟩ := of_bind_ok h
    obtain ⟨rfl, rfl⟩ := of_pure_ok h
    exact ⟨rfl, of_set put⟩

/-! ## Layers afterwards -/

/-- Nothing in the innermost layer waits for its birth. -/
def IsBorn (db : Layered) : Prop := ∀ k f, db.inner.facts.at? k = some f → f ≠ .indeterminate none

/-- A copy brings a fact up and leaves the layers alone. -/
theorem raised_of_copy (born : db.IsBorn) (h : (copy key).on db = (.ok true, db')) :
    Raised key db db' ∧ db'.inner = db.inner := by
  have course := of_copy h
  split at course
  · cases course.1
  · rename_i f held
    obtain ⟨-, -, rfl⟩ := course
    have visible : db.visible? key = some f := by
      rw [visible?_eq_or, held, Option.some_or]
    refine ⟨⟨⟨f, held⟩, ?_, rfl⟩, rfl⟩
    change db.global.assign key (db.births.settle key (some f)) = _
    rw [Births.settle_of_born _ (born key f held), visible]

theorem settle_none (births : Births) (key : Key) : births.settle key none = none := by
  cases key <;> rfl

/-- Taking a key away from the innermost layer changes that layer. -/
theorem inner_removed (db : Layered) (key : Key) :
    (db.write db.innerSlot key none).inner
        = { db.inner with facts := db.inner.facts.assign key none } ∧
      (db.write db.innerSlot key none).outer = db.outer ∧
      (db.write db.innerSlot key none).global = db.global := by
  rw [write_eq, settle_none]
  refine ⟨?_, db.modify_outer _, rfl⟩
  change db.inner.modify db.inner.serial _ = _
  rw [Layer.modify, if_pos rfl]

/-- A move brings a fact up and takes the key away from the innermost layer. -/
theorem raised_of_promote (born : db.IsBorn) (h : (promote key).on db = (.ok true, db')) :
    Raised key db db' ∧
      db'.inner = { db.inner with facts := db.inner.facts.assign key none } := by
  have course := of_promote h
  obtain ⟨inner, outer, global⟩ := inner_removed db key
  split at course
  · cases course.1
  · rename_i f held
    obtain ⟨-, -, rfl⟩ := course
    have visible : db.visible? key = some f := by
      rw [visible?_eq_or, held, Option.some_or]
    refine ⟨⟨⟨f, held⟩, ?_, outer⟩, inner⟩
    change (db.write db.innerSlot key none).global.assign key
      ((db.births.after key none).settle key (some f)) = _
    rw [Births.settle_of_born _ (born key f held), global, visible]

/-! ## Readers afterwards -/

/-- What a copy has done to a store: the fact has been brought up, the layers are as
    they were, and every key reads as before. -/
structure Copied (key : Key) (db db' : Layered) : Prop extends Raised key db db' where
  inner : db'.inner = db.inner
  reads : ∀ other, db'.read other = db.read other

/-- What a move has done to a store: the fact has been brought up and is gone from the
    innermost layer. Every other key reads as before, and the key itself as the layers
    say that lay under the fact, or as before if none of them has it. -/
structure Promoted (key : Key) (db db' : Layered) : Prop extends Raised key db db' where
  inner : db'.inner = { db.inner with facts := db.inner.facts.assign key none }
  reads : ∀ other, other ≠ key → db'.read other = db.read other
  uncovers : db'.visible? key = (db.covered? key).or (db.visible? key)

theorem copied (born : db.IsBorn) (h : (copy key).on db = (.ok true, db')) :
    Copied key db db' := by
  obtain ⟨raised, inner⟩ := raised_of_copy born h
  refine { raised with inner, reads := fun other => ?_ }
  by_cases same : other = key
  · subst same
    obtain ⟨f, held⟩ := raised.held
    refine read_congr ?_
    rw [visible?_eq_or, visible?_eq_or, inner, held, Option.some_or, Option.some_or]
  · exact raised.read_other same (by rw [inner])

theorem promoted (born : db.IsBorn) (h : (promote key).on db = (.ok true, db')) :
    Promoted key db db' := by
  obtain ⟨raised, inner⟩ := raised_of_promote born h
  refine { raised with inner, reads := fun other ne => ?_, uncovers := ?_ }
  · refine raised.read_other ne ?_
    rw [inner, Facts.at?_assign, Facts.overwritten_of_ne ne, id]
  · obtain ⟨f, held⟩ := raised.held
    cases key with
    | other d => cases held
    | name s =>
      have gone : db'.inner.facts.at? (.name s) = none := by
        rw [inner, Facts.at?_assign]
        exact if_pos rfl
      have put : db'.global.at? (.name s) = db.visible? (.name s) := by
        rw [raised.global, Facts.at?_assign]
        exact if_pos rfl
      have covered : db'.covered? (.name s) = db.covered? (.name s) := by
        rw [covered?, raised.outer]
        rfl
      rw [visible?_eq_or db', gone, put, covered, Option.none_or]

/-- A move changes nothing for readers if and only if no layer under the fact says
    something else. -/
theorem Promoted.unnoticed_iff (h : Promoted key db db') :
    (∀ other, db'.read other = db.read other) ↔
      ∀ f, db.covered? key = some f → db.visible? key = some f := by
  obtain ⟨f, held⟩ := h.held
  constructor
  · intro same g covers
    cases key with
    | other d => cases held
    | name s =>
      have reads : db'.visible? (.name s) = db.visible? (.name s) := Except.ok.inj (same (.name s))
      rw [← reads, h.uncovers, covers, Option.some_or]
  · intro agrees other
    by_cases same : other = key
    · subst same
      refine read_congr (h.uncovers.trans ?_)
      cases covers : db.covered? other with
      | none => exact Option.none_or
      | some g => rw [Option.some_or, agrees g covers]
    · exact h.reads other same

/-! ## Answers -/

/-- Where there was no fact to be brought up, no map has changed. -/
theorem unraised (h : (copy key).on db = (.ok false, db') ∨ (promote key).on db = (.ok false, db')) :
    db'.layers = db.layers ∧ db'.global = db.global := by
  rcases h with h | h
  · have course := of_copy h
    split at course
    · obtain ⟨-, rfl⟩ := course
      exact ⟨rfl, rfl⟩
    · cases course.1
  · have course := of_promote h
    obtain ⟨inner, outer, global⟩ := inner_removed db key
    split at course
    · rename_i nothing
      obtain ⟨-, rfl⟩ := course
      have kept := db.inner.facts.assign_at? key
      rw [nothing] at kept
      refine ⟨?_, global⟩
      rw [layers, layers, inner, outer, kept]
    · cases course.1

/-- In a store without nameless facts, a copy or a move always answers, by whether the
    innermost layer has the name. -/
theorem raising_answers (named : db.WellNamed) (s : String) :
    ((copy (.name s)).on db).1 = .ok (db.inner.facts.get? s).isSome ∧
      ((promote (.name s)).on db).1 = .ok (db.inner.facts.get? s).isSome := by
  have look : (reading ((place (LayerName.inner.slot db)).get (.name s))).on db
      = (.ok (db.inner.facts.get? s), db) := by
    rw [← factsAt_inner]
    rfl
  have taken : ((place (LayerName.inner.slot db)).remove (.name s)).on db
      = (.ok (db.inner.facts.get? s), db.write db.innerSlot (.name s) none) := by
    rw [Place.remove, bind_of_ok look]
    rfl
  rw [copy, promote, innermost, bind_of_ok (target_on .inner db), bind_of_ok (target_on .inner db),
    bind_of_ok look, bind_of_ok taken]
  cases held : db.inner.facts.get? s with
  | none => exact ⟨rfl, rfl⟩
  | some f =>
    have nothing := named.layers db.inner (List.mem_cons_self ..)
    have found : db.inner.facts.at? (.name s) = some f := held
    obtain ⟨_, same, filled⟩ := Facts.filled_of_held nothing found
    cases same
    have put (db : Layered) := (place Slot.global).set_named filled f db
    exact ⟨congrArg Prod.fst (bind_of_ok (put _) _), congrArg Prod.fst (bind_of_ok (put _) _)⟩

namespace Session

/-- Only in the global map a fact may wait for its birth. -/
def BornInLayers (slot : Slot) (_ : String) (f : Fact) : Prop :=
  slot ≠ .global → f ≠ .indeterminate none

/-- Of all that a host's store holds, only facts that it was given in the beginning may
    wait for their birth, and those are in the global map. -/
theorem isBorn_carried (facts : Facts) (steps : List Step) :
    ((ofFacts facts).carried steps).store.IsBorn := by
  have lenient : Lenient BornInLayers := fun _ _ _ _ born _ => born
  have start : (ofFacts facts).store.Holds BornInLayers := .ofFacts fun _ layer => absurd rfl layer
  have holds := holds_carried (holds_step lenient) steps start
  intro key f held
  cases key with
  | other d => cases held
  | name s =>
    rw [← factsAt_inner] at held
    exact holds.facts held nofun

/-- Whatever a host did to a store that began with facts it was given, it can copy any
    fact of the innermost layer to the global map, and every key goes on reading as
    before. It can move it there as well; then the other keys read as before, and the
    key itself does if and only if the nearest layer under the innermost one that has
    it, if there is one, says the same. Without such a fact no map changes. -/
theorem raised_to_global {items : List (String × Datum)} {facts : Facts}
    (given : Facts.ofData items = .ok facts) (steps : List Step) (key : Key) (db db' : Layered)
    (reached : db = ((ofFacts facts).carried steps).store) :
    ((copy key).on db = (.ok true, db') → Copied key db db') ∧
    ((promote key).on db = (.ok true, db') → Promoted key db db' ∧
      ((∀ other, db'.read other = db.read other) ↔
        ∀ f, db.covered? key = some f → db.visible? key = some f)) ∧
    ((copy key).on db = (.ok false, db') ∨ (promote key).on db = (.ok false, db') →
      db'.layers = db.layers ∧ db'.global = db.global) ∧
    ∀ s, ((copy (.name s)).on db).1 = .ok (db.inner.facts.get? s).isSome ∧
      ((promote (.name s)).on db).1 = .ok (db.inner.facts.get? s).isSome := by
  subst reached
  have born := isBorn_carried facts steps
  have named : ((ofFacts facts).carried steps).store.WellNamed :=
    wellNamed_carried steps (.ofFacts (Facts.named_of_ofData given))
  exact ⟨copied born, fun h => ⟨promoted born h, (promoted born h).unnoticed_iff⟩, unraised,
    raising_answers named⟩

/-! ### A smithy -/

namespace Smithy

def gold : Key := .name "gold"

/-- There is some gold in the lowest layer, and some more in that of a smithy. -/
def steps : List Step :=
  [ .call ⟨"set", [.str "gold", .int 1], []⟩,
    .call ⟨"push_scope", [.str "smithy"], []⟩,
    .call ⟨"set", [.str "gold", .int 2], []⟩ ]

def smithy : Layered := ((ofFacts ∅).carried steps).store

/-- The gold of the smithy is moved to the global map, and the gold of the lowest layer
    is what can be seen then. -/
theorem promotion_uncovers : ∃ db', (promote gold).on smithy = (.ok true, db') ∧
    smithy.read gold = .ok (some (.int 2)) ∧ db'.read gold = .ok (some (.int 1)) := by
  have before : smithy.visible? gold = some (.int 2) := by decide +kernel
  have after : ((promote gold).on smithy).2.visible? gold = some (.int 1) := by decide +kernel
  exact ⟨_, of_toOption (by decide +kernel), congrArg Except.ok before,
    congrArg Except.ok after⟩

/-- A copy of the gold is not noticed, moving it is, and there is no silver. -/
theorem gold_raised : ∃ db₁ db₂ db₃, (copy gold).on smithy = (.ok true, db₁) ∧
    Copied gold smithy db₁ ∧ (promote gold).on smithy = (.ok true, db₂) ∧
    Promoted gold smithy db₂ ∧ (¬∀ other, db₂.read other = smithy.read other) ∧
    (promote (.name "silver")).on smithy = (.ok false, db₃) ∧ db₃.layers = smithy.layers := by
  have copies : (copy gold).on smithy = (.ok true, ((copy gold).on smithy).2) :=
    of_toOption (by decide +kernel)
  have moves : (promote gold).on smithy = (.ok true, ((promote gold).on smithy).2) :=
    of_toOption (by decide +kernel)
  have lacks : (promote (.name "silver")).on smithy
      = (.ok false, ((promote (.name "silver")).on smithy).2) :=
    of_toOption (by decide +kernel)
  have given : Facts.ofData [] = .ok ∅ := rfl
  obtain ⟨copied, -, -, -⟩ := raised_to_global given steps gold smithy _ rfl
  obtain ⟨-, promoted, -, -⟩ := raised_to_global given steps gold smithy _ rfl
  obtain ⟨-, -, unraised, -⟩ := raised_to_global given steps (.name "silver") smithy _ rfl
  refine ⟨_, _, _, copies, copied copies, moves, (promoted moves).1, fun same => ?_, lacks,
    (unraised (.inr lacks)).1⟩
  have agrees := (promoted moves).2.mp same (.int 1) (by decide +kernel)
  exact absurd agrees (by decide +kernel)

end Smithy

end Session

end Layered

end Cascade
