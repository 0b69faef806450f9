-- SUMMARY: What is visible in a layered store, whichever way it is read: key by key, as one map, as a list, by number, or only whether there is anything.
import Mathlib.Data.Set.Card
import Cascade.Store.Layered

/-! # Visible facts

A key is looked up from the innermost layer outwards, and the first layer that
has it answers. A snapshot is made the other way: each layer is put over those
below it. Both tell the same facts, however high the stack is and whatever covers
what, so a snapshot lists and counts just what can be read. -/

namespace Cascade

namespace Facts

variable {m : Facts} {name : String} {f : Fact}

/-! ## The list of a map -/

theorem mem_toList : (name, f) ∈ m.toList ↔ m.get? name = some f :=
  Std.ExtTreeMap.mem_toList_iff_getElem?_eq_some

theorem nodup_toList (m : Facts) : (m.toList.map (·.1)).Nodup := by
  have distinct := Std.ExtTreeMap.distinct_keys_toList (t := m.map)
  refine List.pairwise_map.mpr (distinct.imp fun differ same => differ ?_)
  rw [same]
  exact Std.ReflCmp.compare_self

theorem length_toList (m : Facts) : m.toList.length = m.size := Std.ExtTreeMap.length_toList

/-- A map has no facts if no name means one. -/
theorem size_eq_zero_iff : m.size = 0 ↔ ∀ name, m.get? name = none := by
  rw [← length_toList, List.length_eq_zero_iff, List.eq_nil_iff_forall_not_mem]
  constructor
  · intro none name
    rw [Option.eq_none_iff_forall_ne_some]
    exact fun f found => none (name, f) (mem_toList.mpr found)
  · rintro none ⟨name, f⟩ mem
    rw [mem_toList, none name] at mem
    cases mem

theorem isEmpty_iff : m.isEmpty ↔ ∀ name, m.get? name = none := by
  rw [← size_eq_zero_iff, isEmpty, Std.ExtTreeMap.isEmpty_eq_size_beq_zero, beq_iff_eq]
  rfl

/-! ## A map over another one -/

/-- Names that are not among those put into a map keep what they mean. -/
theorem get?_foldl_of_not_mem {items : List (String × Fact)} (other : name ∉ items.map (·.1))
    (m : Facts) : (items.foldl (fun m (name, f) => m.insert name f) m).get? name = m.get? name := by
  induction items generalizing m with
  | nil => rfl
  | cons item rest ih =>
    obtain ⟨differs, other⟩ := not_or.mp (mt List.mem_cons.mpr other)
    rw [List.foldl_cons, ih other, get?_insert, if_neg (Ne.symm differs)]

/-- Of names that are put into a map, each once, each means what it was put for. -/
theorem get?_foldl_of_mem {items : List (String × Fact)} (distinct : (items.map (·.1)).Nodup)
    (mem : (name, f) ∈ items) (m : Facts) :
    (items.foldl (fun m (name, f) => m.insert name f) m).get? name = some f := by
  -- on the facts that are still to be put, over the map that those before them made
  induction items generalizing m with
  | nil => cases mem
  | cons item rest ih =>
    obtain ⟨last, distinct⟩ := List.nodup_cons.mp distinct
    rcases List.mem_cons.mp mem with rfl | mem
    · rw [List.foldl_cons, get?_foldl_of_not_mem last, get?_insert, if_pos rfl]
    · exact ih distinct mem _

/-- In an overlay a name means what it means in the upper map, or in the lower one
    if it means nothing there. -/
theorem get?_overlay (upper lower : Facts) (name : String) :
    (upper.overlay lower).get? name = (upper.get? name).or (lower.get? name) := by
  cases found : upper.get? name with
  | some f => exact get?_foldl_of_mem (nodup_toList upper) (mem_toList.mpr found) lower
  | none =>
    refine get?_foldl_of_not_mem (fun mem => ?_) lower
    obtain ⟨⟨_, f⟩, listed, rfl⟩ := List.mem_map.mp mem
    rw [mem_toList, found] at listed
    cases listed

theorem at?_overlay (upper lower : Facts) (key : Key) :
    (upper.overlay lower).at? key = (upper.at? key).or (lower.at? key) := by
  cases key with
  | name s => exact get?_overlay upper lower s
  | other d => rfl

end Facts

namespace Layered

variable {db : Layered} {name : String}

/-- What a store says of a key: it is read as a fact. -/
def Contains (db : Layered) (key : Key) : Prop := ∃ f, db.read key = .ok (some f)

/-! ## A snapshot -/

/-- Layers put over one another over a map, and a look-up through them. -/
theorem at?_foldr_overlay (layers : List Layer) (lowest : Facts) (key : Key) :
    (layers.foldr (fun l m => l.facts.overlay m) lowest).at? key
      = (layers.findSome? (·.facts.at? key)).or (lowest.at? key) := by
  -- on the stack: the innermost layer is asked first and put on last
  induction layers with
  | nil => rfl
  | cons l rest ih =>
    rw [List.foldr_cons, Facts.at?_overlay, ih, List.findSome?_cons]
    cases l.facts.at? key with
    | some f => rfl
    | none => rfl

theorem at?_snapshot (db : Layered) (key : Key) : db.snapshot.at? key = db.visible? key :=
  at?_foldr_overlay db.layers db.global key

/-- Reading a key gives what is visible of it; where something is, reading does
    not fail. -/
theorem read_eq_some_iff {key : Key} {f : Fact} :
    db.read key = .ok (some f) ↔ db.visible? key = some f := by
  cases key with
  | name s => exact ⟨Except.ok.inj, congrArg Except.ok⟩
  | other d =>
    have none : db.visible? (.other d) = none := by
      rw [← at?_snapshot]
      rfl
    unfold read
    rw [none]
    split <;> simp

/-- The keys that a store contains are the names of its snapshot. -/
theorem contains_eq (db : Layered) :
    {key | db.Contains key} = Key.name '' {name | name ∈ db.snapshot.toList.map (·.1)} := by
  ext key
  simp only [Contains, read_eq_some_iff, ← at?_snapshot, Set.mem_ofPred_eq, Set.mem_image,
    List.mem_map, Prod.exists, Facts.mem_toList]
  cases key with
  | name s => simp [Facts.at?]
  | other d => simp [Facts.at?]

/-- No map of a store has facts if nothing is visible. -/
theorem isEmpty_iff : db.isEmpty ↔ ∀ name : String, db.visible? name = none := by
  simp only [isEmpty, Bool.and_eq_true, List.all_eq_true, Facts.isEmpty_iff, visible?,
    Option.or_eq_none_iff, List.findSome?_eq_none_iff]
  constructor
  · rintro ⟨bottom, above⟩ name
    exact ⟨fun l hl => above l hl name, bottom name⟩
  · intro none
    exact ⟨fun name => (none name).2, fun l hl name => (none name).1 l hl⟩

/-- All ways of reading a store agree: its snapshot has under every key what the
    key is read as, it lists each name once and lists just the names that are read
    as facts, with these facts, its size is the number of keys that the store
    contains, and it is empty if that is zero. -/
theorem reads_agree (db : Layered) :
    (∀ key f, db.snapshot.at? key = some f ↔ db.read key = .ok (some f)) ∧
      (∀ (name : String) f, (name, f) ∈ db.snapshot.toList ↔ db.read name = .ok (some f)) ∧
      (db.snapshot.toList.map (·.1)).Nodup ∧
      {key | db.Contains key}.encard = db.size ∧
      (db.isEmpty ↔ db.size = 0) := by
  refine ⟨?_, ?_, Facts.nodup_toList _, ?_, ?_⟩
  · intro key f
    rw [read_eq_some_iff, at?_snapshot]
  · intro name f
    rw [read_eq_some_iff, Facts.mem_toList, ← at?_snapshot]
    rfl
  · have names := List.toFinset_card_of_nodup (Facts.nodup_toList db.snapshot)
    rw [contains_eq, Set.InjOn.encard_image (fun a _ b _ => Key.name.inj), ← List.coe_toFinset,
      Set.encard_coe_eq_coe_finsetCard, names, List.length_map, Facts.length_toList]
    rfl
  · rw [isEmpty_iff, size, Facts.size_eq_zero_iff]
    exact forall_congr' fun name => by rw [← at?_snapshot]; rfl

end Layered

end Cascade
