-- SUMMARY: Stores that agree on some keys: what a key holds in each map of a store, and what a write does to that.
import Mathlib.Data.Set.Basic
import Cascade.Proofs.Store.Restoring

/-! # Agreement on keys

A store can be looked at key by key: what a key holds in each map, and how many
indeterminate facts were born under it. Two stores **agree** on a set of keys if
they have the same layers and these keys hold the same in them. A write to one
key shows under that key only, so stores that agree still do so when the same
write is made to both, and a store agrees with what a write makes of it on all
other keys. Stores that agree on every key are one. -/

namespace Cascade

/-! ## One key of a map -/

namespace Facts

/-- What a key holds after a write to a key, given what it held before. -/
def overwritten (written : Key) (content : Option Fact) (key : Key) (before : Option Fact) :
    Option Fact :=
  match written, key with
  | .name s, .name t => if s = t then content else before
  | _, _ => before

theorem overwritten_of_ne {written key : Key} (h : key ≠ written) (content : Option Fact) :
    overwritten written content key = id := by
  funext before
  unfold overwritten
  split
  · rename_i s t
    exact if_neg fun same => h (congrArg Key.name same.symm)
  · rfl

theorem at?_assign (m : Facts) (written : Key) (content : Option Fact) (key : Key) :
    (m.assign written content).at? key = overwritten written content key (m.at? key) := by
  cases written with
  | other d => rfl
  | name s =>
    cases key with
    | other d => rfl
    | name t => exact get?_assign m s content t

end Facts

namespace Births

/-- Only what waits for its birth is stored as something else. -/
theorem settle_of_born (births : Births) {key : Key} {f : Fact}
    (born : f ≠ .indeterminate .none) : births.settle key (some f) = some f := by
  unfold settle
  split
  · rename_i given
    exact absurd (Option.some.inj given) born
  · rfl

/-- How many indeterminate facts were stored first under a key. -/
def under (births : Births) : Key → Nat
  | .name s => births s
  | .other _ => 0

/-- Births under other keys have no part in what a key comes to hold. -/
theorem settle_congr {births births' : Births} {key : Key}
    (h : births.under key = births'.under key) (content : Option Fact) :
    births.settle key content = births'.settle key content := by
  unfold settle
  split
  · rename_i s
    have h : births s = births' s := h
    rw [h]
  · rfl

/-- The births under a key after a write, by those before. -/
theorem under_after_congr {births births' : Births} {key : Key}
    (h : births.under key = births'.under key) (written : Key) (content : Option Fact) :
    (births.after written content).under key = (births'.after written content).under key := by
  unfold after
  split
  · cases key with
    | other d => rfl
    | name t =>
      have h : births t = births' t := h
      simp only [under, h]
  · exact h

/-- A write has no part in the births under other keys. -/
theorem under_after_of_ne {written key : Key} (h : key ≠ written) (births : Births)
    (content : Option Fact) : (births.after written content).under key = births.under key := by
  unfold after
  split
  · cases key with
    | other d => rfl
    | name t => exact if_neg fun same => h (congrArg Key.name same)
  · rfl

end Births

namespace Layered

/-! ## One key of a store -/

/-- The map of a slot, if it is there. -/
def mapAt? (db : Layered) : Slot → Option Facts
  | .global => some db.global
  | .layer n => (db.layers.find? (·.serial = n)).map (·.facts)

/-- What a key holds in the map of a slot, if the map is there. -/
def cell? (db : Layered) (slot : Slot) (key : Key) : Option (Option Fact) :=
  (db.mapAt? slot).map (·.at? key)

theorem at?_factsAt (db : Layered) (slot : Slot) (key : Key) :
    (db.factsAt slot).at? key = (db.cell? slot key).join := by
  cases slot with
  | global => rfl
  | layer n =>
    simp only [factsAt, cell?, mapAt?]
    cases db.layers.find? (·.serial = n) with
    | some l => rfl
    | none => cases key with
      | name s => exact Facts.get?_empty s
      | other d => rfl

/-- Changing the facts of a slot changes one map, if it is there. -/
theorem mapAt?_modifyAt (db : Layered) (slot other : Slot) (f : Facts → Facts) :
    (db.modifyAt slot f).mapAt? other
      = if slot = other then (db.mapAt? other).map f else db.mapAt? other := by
  cases slot with
  | global =>
    cases other with
    | global => rfl
    | layer m => rfl
  | layer n =>
    cases other with
    | global => rfl
    | layer m =>
      have layers : (db.modifyAt (.layer n) f).layers = db.layers.map (·.modify n f) := rfl
      have serial : ((decide <| ·.serial = m) ∘ Layer.modify n f) = (decide <| ·.serial = m) := by
        funext l
        simp only [Function.comp_apply, Layer.serial_modify]
      simp only [mapAt?, layers, List.find?_map, serial, Option.map_map]
      cases found : db.layers.find? (·.serial = m) with
      | none => simp
      | some l =>
        have hl : l.serial = m := by simpa using List.find?_some found
        by_cases h : n = m
        · simp [h, hl, Layer.modify]
        · have apart : l.serial ≠ n := fun same => h (same.symm.trans hl)
          simp [h, apart, Layer.modify]

/-- A write shows in the map that it goes to, under its key. -/
theorem cell?_write (db : Layered) (slot : Slot) (written : Key) (content : Option Fact)
    (other : Slot) (key : Key) :
    (db.write slot written content).cell? other key
      = if slot = other then
          (db.cell? other key).map
            (Facts.overwritten written (db.births.settle written content) key)
        else db.cell? other key := by
  have booked (db : Layered) (b : Births) (j : Journal Slot) :
      (db.booked b j).mapAt? other = db.mapAt? other := by
    cases other <;> rfl
  rw [write_eq, cell?, booked, mapAt?_modifyAt]
  split
  · simp only [cell?, Option.map_map, Function.comp_def, Facts.at?_assign]
  · rfl

/-- The layers, put together from what there are and what is in them. -/
theorem layers_eq (db : Layered) :
    db.layers = db.frames.map fun (n, scope) => ⟨n, scope, db.factsAt (.layer n)⟩ := by
  simp only [frames, List.map_map, Function.comp_def]
  refine (List.map_id' db.layers).symm.trans (List.map_congr_left fun l hl => ?_)
  rw [factsAt_of_mem hl]

theorem visible?_eq (db : Layered) (key : Key) :
    db.visible? key
      = (db.frames.findSome? fun (n, _) => (db.factsAt (.layer n)).at? key).or
          ((db.factsAt .global).at? key) := by
  rw [visible?, layers_eq, List.findSome?_map]
  rfl

/-! ## Agreement -/

/-- Two stores with the same layers in which the keys of a set hold the same. -/
structure Agree (keys : Set Key) (db db' : Layered) : Prop where
  frames : db.frames = db'.frames
  serials : db.serials = db'.serials
  active : db.journal.active = db'.journal.active
  cells : ∀ key ∈ keys, ∀ slot, db.cell? slot key = db'.cell? slot key
  births : ∀ key ∈ keys, db.births.under key = db'.births.under key

namespace Agree

variable {keys keys' : Set Key} {db db' db'' : Layered}

theorem refl (keys : Set Key) (db : Layered) : Agree keys db db :=
  ⟨rfl, rfl, rfl, fun _ _ _ => rfl, fun _ _ => rfl⟩

theorem symm (h : Agree keys db db') : Agree keys db' db where
  frames := h.frames.symm
  serials := h.serials.symm
  active := h.active.symm
  cells := fun key hk slot => (h.cells key hk slot).symm
  births := fun key hk => (h.births key hk).symm

theorem trans (h : Agree keys db db') (h' : Agree keys db' db'') : Agree keys db db'' where
  frames := h.frames.trans h'.frames
  serials := h.serials.trans h'.serials
  active := h.active.trans h'.active
  cells := fun key hk slot => (h.cells key hk slot).trans (h'.cells key hk slot)
  births := fun key hk => (h.births key hk).trans (h'.births key hk)

theorem mono (h : Agree keys db db') (fewer : keys' ⊆ keys) : Agree keys' db db' :=
  { h with
    cells := fun key hk => h.cells key (fewer hk)
    births := fun key hk => h.births key (fewer hk) }

/-- Stores agree on the keys of two sets if they agree on those of either. -/
theorem union (h : Agree keys db db') (h' : Agree keys' db db') : Agree (keys ∪ keys') db db' :=
  { h with
    cells := fun key hk => hk.elim (h.cells key) (h'.cells key)
    births := fun key hk => hk.elim (h.births key) (h'.births key) }

/-! ### Reading -/

theorem at? (h : Agree keys db db') {key : Key} (hk : key ∈ keys) (slot : Slot) :
    (db.factsAt slot).at? key = (db'.factsAt slot).at? key := by
  rw [at?_factsAt, at?_factsAt, h.cells key hk]

theorem read (h : Agree keys db db') {key : Key} (hk : key ∈ keys) :
    db.read key = db'.read key := by
  unfold Layered.read
  simp only [visible?_eq, h.frames, h.at? hk]

theorem slot (h : Agree keys db db') (layer : LayerRef) : layer.slot db = layer.slot db' := by
  have inner : db.inner.serial = db'.inner.serial :=
    congrArg Prod.fst (List.cons.inj h.frames).1
  cases layer with
  | other d => rfl
  | named name =>
    cases name with
    | global => rfl
    | inner => exact congrArg (fun n => Except.ok (Slot.layer n)) inner

/-! ### Writing -/

theorem active_write (db : Layered) (slot : Slot) (key : Key) (content : Option Fact) :
    (db.write slot key content).journal.active = db.journal.active := by
  rw [journal_write, Journal.active_record]

theorem frames_write (db : Layered) (slot : Slot) (key : Key) (content : Option Fact) :
    (db.write slot key content).frames = db.frames := by
  rw [write_eq]
  exact frames_modifyAt slot _ db

theorem serials_write (db : Layered) (slot : Slot) (key : Key) (content : Option Fact) :
    (db.write slot key content).serials = db.serials := by
  rw [write_eq]
  exact serials_modifyAt slot _ db

/-- Stores agree as before when the same write is made to both, be it to a key on
    which they agree or to another one. -/
theorem write (h : Agree keys db db') (slot : Slot) (written : Key) (content : Option Fact) :
    Agree keys (db.write slot written content) (db'.write slot written content) where
  frames := by simp only [frames_write, h.frames]
  serials := by simp only [serials_write, h.serials]
  active := by simp only [active_write, h.active]
  cells := by
    intro key hk other
    rw [cell?_write, cell?_write, h.cells key hk]
    by_cases same : key = written
    · rw [← same, Births.settle_congr (h.births key hk)]
    · rw [Facts.overwritten_of_ne same, Facts.overwritten_of_ne same]
  births := fun key hk => Births.under_after_congr (h.births key hk) written content

/-- A write to another key leaves a store as it was for some keys. -/
theorem written {written : Key} (other : written ∉ keys) (db : Layered) (slot : Slot)
    (content : Option Fact) : Agree keys db (db.write slot written content) where
  frames := (frames_write ..).symm
  serials := (serials_write ..).symm
  active := (active_write ..).symm
  cells := by
    intro key hk place
    rw [cell?_write, Facts.overwritten_of_ne (ne_of_mem_of_not_mem hk other), Option.map_id, id,
      ite_self]
  births := fun key hk =>
    (Births.under_after_of_ne (ne_of_mem_of_not_mem hk other) db.births content).symm

/-! ### Everywhere -/

/-- Stores that agree on every key have equal maps. -/
theorem factsAt (h : Agree .univ db db') (slot : Slot) : db.factsAt slot = db'.factsAt slot := by
  ext name : 1
  exact h.at? (Set.mem_univ (.name name)) slot

/-- Stores with one journal that agree on every key are one. -/
theorem eq (h : Agree .univ db db') (journal : db.journal = db'.journal) : db = db' := by
  have global : db.global = db'.global := h.factsAt .global
  have layers : db.layers = db'.layers := by
    rw [layers_eq, layers_eq, h.frames]
    simp only [h.factsAt]
  have births : db.births = db'.births := by
    funext name
    exact h.births (.name name) (Set.mem_univ _)
  have serials := h.serials
  obtain ⟨global, inner, outer, serials, births, journal, descending⟩ := db
  obtain ⟨global', inner', outer', serials', births', journal', descending'⟩ := db'
  obtain ⟨rfl, rfl⟩ : inner = inner' ∧ outer = outer' := List.cons.inj layers
  subst_vars
  rfl

/-! ### Two orders -/

/-- A store is changed twice, in either order, and neither change writes a key to
    which the other one refers. If each change comes to the same on the keys that
    it refers to whether it comes first or second, both orders come to the same on
    every key. -/
theorem of_either_order {keys₁ keys₂ written₁ written₂ : Set Key}
    {start mid last mid' last' : Layered}
    (inside₁ : written₁ ⊆ keys₁) (inside₂ : written₂ ⊆ keys₂)
    (free₁ : keys₁ ⊆ written₂ᶜ) (free₂ : keys₂ ⊆ written₁ᶜ)
    (first : Agree written₁ᶜ start mid) (second : Agree written₂ᶜ mid last)
    (first' : Agree written₂ᶜ start mid') (second' : Agree written₁ᶜ mid' last')
    (same₁ : Agree keys₁ mid last') (same₂ : Agree keys₂ last mid') : Agree .univ last last' := by
  -- the keys of either change, which the other one leaves alone, and those of neither
  have on₁ : Agree keys₁ last last' := (second.mono free₁).symm.trans same₁
  have on₂ : Agree keys₂ last last' := same₂.trans (second'.mono free₂)
  have elsewhere : Agree (written₁ᶜ ∩ written₂ᶜ) last last' := by
    have back := (second.mono Set.inter_subset_right).symm.trans
      (first.mono Set.inter_subset_left).symm
    have forth := (first'.mono Set.inter_subset_right).trans
      (second'.mono Set.inter_subset_left)
    exact back.trans forth
  refine (on₁.union (on₂.union elsewhere)).mono fun key _ => ?_
  by_cases h₁ : key ∈ keys₁
  · exact .inl h₁
  · by_cases h₂ : key ∈ keys₂
    · exact .inr (.inl h₂)
    · exact .inr (.inr ⟨fun hw => h₁ (inside₁ hw), fun hw => h₂ (inside₂ hw)⟩)

end Agree

end Layered

end Cascade
