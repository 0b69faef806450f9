-- SUMMARY: The layered store: a global map of facts under a stack of local ones, and how keys are read through the layers.
import Cascade.Fact.Quantity
import Cascade.Store.Place

/-! # The layered store

A global map of facts lies under a stack of local **layers**, each opened by a
scope. The lowest local layer is always there. A key reads as what the
innermost layer that has it says, and as the global map says if no layer has
it. Layers carry serial numbers that are never given twice, so an entry of an
undo log names one layer for good, also after that layer is gone. A store keeps
the proof of that: from the next number to be given down to the lowest layer,
the numbers go down.

The store counts the births of indeterminate facts under each name, so that no
two of them get the same one. -/

namespace Cascade

/-- A local map of facts: its serial number, the scope that opened it, its
    facts. -/
structure Layer where
  serial : Nat
  scope : String
  facts : Facts
  deriving Inhabited

/-- Changes the facts of a layer, if it has the given serial number. -/
def Layer.modify (serial : Nat) (f : Facts → Facts) (l : Layer) : Layer :=
  if l.serial = serial then { l with facts := f l.facts } else l

@[simp]
theorem Layer.serial_modify (serial : Nat) (f : Facts → Facts) (l : Layer) :
    (l.modify serial f).serial = l.serial := by
  unfold Layer.modify
  split <;> rfl

/-- One of the maps of a layered store. -/
inductive Slot where
  | global
  | layer (serial : Nat)
  deriving DecidableEq, Repr

/-! ## Births -/

/-- How many indeterminate facts were stored first under each name. -/
abbrev Births := String → Nat

namespace Births

def none : Births := fun _ => 0

/-- What a key comes to hold when something is written to it: an indeterminate
    fact without a birth is born there. -/
def settle (births : Births) (key : Key) (content : Option Fact) : Option Fact :=
  match key, content with
  | .name s, some (.indeterminate .none) => some (.indeterminate (some ⟨s, births s⟩))
  | _, content => content

/-- The births after something was written to a key. -/
def after (births : Births) (key : Key) (content : Option Fact) : Births :=
  match key, content with
  | .name s, some (.indeterminate .none) =>
    fun name => if name = s then births name + 1 else births name
  | _, _ => births

end Births

/-! ## The store -/

/-- A global map of facts under a stack of local ones. -/
structure Layered where
  global : Facts
  inner : Layer
  outer : List Layer
  serials : Nat
  births : Births
  journal : Journal Slot
  descending : (serials :: inner.serial :: outer.map (·.serial)).Pairwise (· > ·)

namespace Layered

/-- The scope of the lowest local layer. -/
def baseScope : String := "base"

/-- A store with the given global facts and an empty lowest layer. -/
def ofFacts (global : Facts) : Layered where
  global := global
  inner := ⟨0, baseScope, ∅⟩
  outer := []
  serials := 1
  births := .none
  journal := .empty
  descending := by decide

instance : Inhabited Layered := ⟨ofFacts ∅⟩

/-! ## Layers -/

/-- The local layers from the innermost to the lowest. -/
def layers (db : Layered) : List Layer := db.inner :: db.outer

/-- The innermost layer as a slot. -/
def innerSlot (db : Layered) : Slot := .layer db.inner.serial

/-- The facts of a slot; a layer that is gone has none. -/
def factsAt (db : Layered) : Slot → Facts
  | .global => db.global
  | .layer n => ((db.layers.find? (·.serial = n)).map (·.facts)).getD ∅

/-- Changes the facts of a slot; of a layer that is gone there is nothing to
    change. -/
def modifyAt (slot : Slot) (f : Facts → Facts) (db : Layered) : Layered :=
  match slot with
  | .global => { db with global := f db.global }
  | .layer n =>
    { db with
      inner := db.inner.modify n f
      outer := db.outer.map (·.modify n f)
      descending := by simpa [Function.comp_def] using db.descending }

/-- Makes a key of a slot mean a fact, or nothing, and records what it meant
    before. -/
def write (slot : Slot) (key : Key) (content : Option Fact) (db : Layered) : Layered :=
  let before := (db.factsAt slot).at? key
  let births := db.births.after key content
  let db := db.modifyAt slot (·.assign key (db.births.settle key content))
  { db with births, journal := db.journal.record ⟨slot, key, before⟩ }

def place (slot : Slot) : Place Layered := ⟨fun db => db.factsAt slot, write slot⟩

/-! ## Visible facts -/

/-- What a key reads as through the layers. -/
def visible? (db : Layered) (key : Key) : Option Fact :=
  (db.layers.findSome? (·.facts.at? key)).or (db.global.at? key)

/-- What a key reads as; a list or a record cannot be asked for. -/
def read (db : Layered) (key : Key) : Except Fault (Option Fact) :=
  if key.toDatum.isScalar then .ok (db.visible? key) else .error .wrongType

def snapshot (db : Layered) : Facts :=
  db.layers.foldr (fun l m => l.facts.overlay m) db.global

def size (db : Layered) : Nat := db.snapshot.size

def isEmpty (db : Layered) : Bool :=
  db.global.isEmpty && db.layers.all (·.facts.isEmpty)

def scopes (db : Layered) : List String := (db.layers.dropLast.map (·.scope)).reverse

/-- The local layers from the lowest to the innermost, with their scopes. -/
def locals (db : Layered) : List (String × Facts) :=
  (db.layers.map fun l => (l.scope, l.facts)).reverse

def currentScope (db : Layered) : String := db.inner.scope

end Layered

end Cascade
