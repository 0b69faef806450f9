-- SUMMARY: What a modification that succeeds has done to its map: nothing, one write of something new, or a removal; the kinds this keeps, and where it leaves the store's own conditional write.
import Cascade.Proofs.Modification.Fitting

/-! # The course of a modification

A modification that succeeds has taken one of three courses: it left the store
alone, it wrote a fact that the map it goes to did not hold, or it took its key
away from that map. What it says about a change is told by the course.

Whether a fact may be written is decided by what the key reads as through all
layers, and so is whether a conditional modification has anything to do. Both are
about another fact than the one that is overwritten when a modification goes to
the global map and a layer covers the key there. -/

namespace Cascade

open Attempt

/-! ## Facts that stand somewhere -/

namespace Fact

/-- Whether a fact stands where something is stored: it is stored there, or it was
    computed without a numeric result and was born when it was stored. -/
def Stands (f : Fact) (stored : Option Fact) : Prop :=
  isSame? stored f = true ∨
    f = .indeterminate none ∧ ∃ birth, stored = some (.indeterminate (some birth))

/-- An indeterminate fact that was never stored is found nowhere. -/
theorem isSame?_unborn (stored : Option Fact) : isSame? stored (.indeterminate none) = false := by
  cases stored with
  | none => rfl
  | some g =>
    cases g with
    | indeterminate birth => cases birth <;> rfl
    | _ => rfl

/-- What is found somewhere stands only where it is found. -/
theorem stands_iff {elsewhere : Option Fact} {f : Fact} (found : isSame? elsewhere f = true)
    (stored : Option Fact) : f.Stands stored ↔ isSame? stored f = true := by
  refine or_iff_left fun ⟨unborn, _⟩ => ?_
  rw [unborn, isSame?_unborn] at found
  cases found

/-- A fact that is not waiting for its birth is equal to itself. -/
theorem same_self {f : Fact} (born : f ≠ .indeterminate none) : same f f = true := by
  cases f with
  | indeterminate birth =>
    cases birth with
    | none => exact absurd rfl born
    | some birth => simp [same]
  | _ => simp [same]

/-- A fact stands where it was written. -/
theorem stands_settle (births : Births) (s : String) (f : Fact) :
    f.Stands (births.settle (.name s) (some f)) := by
  by_cases unborn : f = .indeterminate none
  · rw [unborn]
    exact .inr ⟨rfl, _, rfl⟩
  · rw [births.settle_of_born unborn]
    exact .inl (same_self unborn)

end Fact

namespace Layered

variable {db db' : Layered} {key : Key} {name : LayerName}

/-! ## The maps that a caller can name -/

/-- A map that a caller can name is there. -/
theorem cell?_slot (db : Layered) (name : LayerName) (key : Key) :
    db.cell? (name.slot db) key = some ((db.factsAt (name.slot db)).at? key) := by
  cases name with
  | inner => simp [cell?, mapAt?, factsAt, LayerName.slot, innerSlot, layers]
  | global => rfl

/-- What a name means in a map after it was written there. -/
theorem at?_write (db : Layered) (name : LayerName) (s : String) (content : Option Fact) :
    ((db.write (name.slot db) (.name s) content).factsAt (name.slot db)).at? (.name s)
      = db.births.settle (.name s) content := by
  rw [at?_factsAt, cell?_write, if_pos rfl, cell?_slot]
  exact if_pos rfl

/-- What the innermost layer holds is what a key reads as. -/
theorem visible?_of_inner {f : Fact} (h : (db.factsAt db.innerSlot).at? key = some f) :
    db.visible? key = some f := by
  have held : db.inner.facts.at? key = some f := by
    simpa [factsAt, innerSlot, layers] using h
  simp [visible?, layers, held]

/-- A key that has a fact in some map reads as something. -/
theorem visible?_of_held {f : Fact} (h : (db.factsAt (name.slot db)).at? key = some f) :
    ∃ v, db.visible? key = some v := by
  cases name with
  | inner => exact ⟨f, visible?_of_inner h⟩
  | global =>
    have held : db.global.at? key = some f := h
    rw [visible?, held]
    cases db.layers.findSome? (·.facts.at? key) with
    | none => exact ⟨f, rfl⟩
    | some covering => exact ⟨covering, rfl⟩

/-! ## Courses -/

/-- What becomes of a store and what is answered: nothing is done, a fact is
    written that the map did not hold and that fits what the key reads as, or the
    key is taken away from the map. -/
inductive Course (removable : Prop) (db : Layered) (key : Key) (layer : LayerRef) :
    Bool → Layered → Prop
  | idle : Course removable db key layer false db
  | wrote (name : LayerName) (f : Fact) :
      layer = .named name → (∃ s, key = .name s) →
      Fact.isSame? ((db.factsAt (name.slot db)).at? key) f = false →
      Fact.Fits removable (db.visible? key) (some f) →
      Course removable db key layer true (db.write (name.slot db) key (some f))
  | erased (name : LayerName) :
      layer = .named name → removable →
      Course removable db key layer ((db.factsAt (name.slot db)).at? key).isSome
        (db.write (name.slot db) key none)

variable {removable : Prop} {layer : LayerRef} {changed : Bool} {f : Fact}

/-! ## Writes that succeed -/

/-- A conditional write to one map found the fact there, or wrote it. -/
theorem of_setAtIfChanged {slot : Slot}
    (h : ((place slot).setIfChanged key (.fact f)).on db = (.ok changed, db')) :
    Fact.isSame? ((db.factsAt slot).at? key) f = true ∧ changed = false ∧ db' = db ∨
      Fact.isSame? ((db.factsAt slot).at? key) f = false ∧ changed = true ∧
        ∃ s, key = .name s ∧ db' = db.write slot key (some f) := by
  obtain ⟨g, given, h⟩ := of_given_bind h
  cases given
  have h := of_get_bind h
  cases compared : Fact.isSame? ((db.factsAt slot).at? key) f with
  | true =>
    simp only [compared, if_true] at h
    obtain ⟨rfl, rfl⟩ := of_pure_ok h
    exact .inl ⟨rfl, rfl, rfl⟩
  | false =>
    simp only [compared, Bool.false_eq_true, if_false] at h
    obtain ⟨⟨⟩, db₁, set, h⟩ := of_bind_ok h
    obtain ⟨rfl, rfl⟩ := of_pure_ok h
    obtain ⟨⟨s, rfl⟩, rfl⟩ := of_set set
    exact .inr ⟨rfl, rfl, s, rfl, rfl⟩

theorem course_of_setAtIfChanged (fits : Fact.Fits removable (db.visible? key) (some f))
    (named : layer = .named name)
    (h : ((place (name.slot db)).setIfChanged key (.fact f)).on db = (.ok changed, db')) :
    Course removable db key layer changed db' := by
  obtain ⟨-, rfl, rfl⟩ | ⟨new, rfl, s, given, rfl⟩ := of_setAtIfChanged h
  · exact .idle
  · exact .wrote name f named ⟨s, given⟩ new fits

/-- What the store's own conditional write asks about a key: what it reads as if
    the write is local, what the global map holds if it is global. -/
def asked (db : Layered) (key : Key) : LayerName → Option Fact
  | .inner => db.visible? key
  | .global => db.global.at? key

/-- What is in the map that a conditional write goes to is also where it asks. -/
theorem asked_of_found (h : Fact.isSame? ((db.factsAt (name.slot db)).at? key) f = true) :
    Fact.isSame? (db.asked key name) f = true := by
  cases name with
  | global => exact h
  | inner =>
    cases held : (db.factsAt (LayerName.inner.slot db)).at? key with
    | none =>
      rw [held] at h
      cases h
    | some g =>
      have visible : db.asked key .inner = some g := visible?_of_inner held
      rw [visible, ← held]
      exact h

/-- The store's own conditional write found the fact where it asked, or has
    written it. -/
theorem of_setIfChanged (h : (setIfChanged key (.fact f) layer).on db = (.ok changed, db')) :
    ∃ name, layer = .named name ∧
      (Fact.isSame? (db.asked key name) f = true ∧ changed = false ∧ db' = db ∨
        Fact.isSame? ((db.factsAt (name.slot db)).at? key) f = false ∧ changed = true ∧
          ∃ s, key = .name s ∧ db' = db.write (name.slot db) key (some f)) := by
  have plain (h : (target layer >>= fun p => p.setIfChanged key (.fact f)).on db
      = (.ok changed, db')) : ∃ name, layer = .named name ∧
        (Fact.isSame? (db.asked key name) f = true ∧ changed = false ∧ db' = db ∨
          Fact.isSame? ((db.factsAt (name.slot db)).at? key) f = false ∧ changed = true ∧
            ∃ s, key = .name s ∧ db' = db.write (name.slot db) key (some f)) := by
    obtain ⟨name, named, h⟩ := of_target_bind h
    exact ⟨name, named, (of_setAtIfChanged h).imp_left fun ⟨found, same⟩ =>
      ⟨asked_of_found found, same⟩⟩
  cases layer with
  | other d => exact plain h
  | named name =>
    cases name with
    | global => exact plain h
    | inner =>
      obtain ⟨g, given, h⟩ := of_given_bind (of_read_bind h)
      cases given
      split at h
      · rename_i found
        obtain ⟨rfl, rfl⟩ := of_pure_ok h
        exact ⟨.inner, rfl, .inl ⟨found, rfl, rfl⟩⟩
      · exact plain h

theorem course_of_setIfChanged (fits : Fact.Fits removable (db.visible? key) (some f))
    (h : (setIfChanged key (.fact f) layer).on db = (.ok changed, db')) :
    Course removable db key layer changed db' := by
  obtain ⟨name, named, ⟨-, rfl, rfl⟩ | ⟨new, rfl, s, given, rfl⟩⟩ := of_setIfChanged h
  · exact .idle
  · exact .wrote name f named ⟨s, given⟩ new fits

/-- The store's own conditional write changes nothing if it finds the fact. -/
theorem setIfChanged_found (scalar : key.toDatum.isScalar = true)
    (found : Fact.isSame? (db.asked key name) f = true) :
    (setIfChanged key (.fact f) (.named name)).on db = (.ok false, db) := by
  cases name with
  | inner =>
    have looks : (reading (·.read key)).on db = (.ok (db.visible? key), db) := by
      rw [on_reading, Layered.read, if_pos scalar]
    have given : (ofExcept (Datum.fact f).toFact).on db = (.ok f, db) := rfl
    have found : Fact.isSame? (db.visible? key) f = true := found
    rw [setIfChanged, bind_of_ok looks, bind_of_ok given, found]
    rfl
  | global =>
    have plain : setIfChanged key (.fact f) (.named .global)
        = target (.named .global) >>= fun p => p.setIfChanged key (.fact f) := rfl
    have named : (target (.named .global)).on db = (.ok (place .global), db) := rfl
    have given : (ofExcept (Datum.fact f).toFact).on db = (.ok f, db) := rfl
    have looks : (reading ((place .global).get key)).on db = (.ok (db.global.at? key), db) := by
      rw [on_reading, Place.get, if_pos scalar]
      rfl
    have found : Fact.isSame? (db.global.at? key) f = true := found
    rw [plain, bind_of_ok named, Place.setIfChanged, bind_of_ok given, bind_of_ok looks, found]
    rfl

theorem course_of_remove (allowed : removable) {stored : Option Fact}
    (h : (remove key layer).on db = (.ok stored, db')) :
    Course removable db key layer stored.isSome db' := by
  obtain ⟨name, named, h⟩ := of_target_bind h
  cases of_get_bind h
  exact .erased name named allowed

end Layered

namespace Modification

open Layered

variable {db db' : Layered} {look : Lookup} {default : LayerRef} {changed : Bool}

section

variable {removable : Prop} {key : Key} {layer : LayerRef}

theorem course_of_overwrite {new : Except Fault Fact}
    (h : (overwrite key layer (db.visible? key) new).on db = (.ok changed, db')) :
    Course removable db key layer changed db' := by
  obtain ⟨f, given, written⟩ := of_given_bind h
  obtain ⟨name, named, written⟩ := of_target_bind written
  cases new with
  | error e => cases given
  | ok new =>
    have accepted : Fact.assignable key (db.visible? key) new = .ok f := given
    exact course_of_setAtIfChanged (Fact.fits_of_assignable _ accepted) named written

theorem course_of_count {op : Arithmetic} {amount : ValueSpec}
    (h : (count op key amount look layer).on db = (.ok changed, db')) :
    Course removable db key layer changed db' := by
  obtain ⟨f, -, h⟩ := of_reading_bind h
  exact course_of_overwrite (of_read_bind h)

end

/-- A modification that succeeds has taken one of the courses, at the map that it
    goes to. -/
theorem course_of_ok {m : Modification} (h : (m.apply look default).on db = (.ok changed, db')) :
    Course (m.effect = .remove) db m.key (m.target default) changed db' := by
  obtain ⟨key, layer, effect⟩ := m
  cases effect with
  | set value =>
    obtain ⟨new, -, h⟩ := of_reading_bind h
    exact course_of_overwrite (of_read_bind h)
  | setIfChanged value outputs =>
    obtain ⟨new, -, h⟩ := of_reading_bind h
    obtain ⟨f, accepted, h⟩ := of_given_bind (of_read_bind h)
    split at h
    · obtain ⟨rfl, rfl⟩ := of_pure_ok h
      exact .idle
    · exact course_of_setIfChanged (Fact.fits_of_assignable _ accepted) h
  | increment amount => exact course_of_count h
  | decrement amount => exact course_of_count h
  | combine op operand =>
    have h := of_read_bind h
    cases visible : db.visible? key with
    | none =>
      rw [visible] at h
      cases h
    | some f =>
      rw [visible] at h
      obtain ⟨g, -, h⟩ := of_reading_bind h
      rw [← visible] at h
      exact course_of_overwrite h
  | remove =>
    obtain ⟨stored, db₁, removed, h⟩ := of_bind_ok h
    obtain ⟨rfl, rfl⟩ := of_pure_ok h
    exact course_of_remove rfl removed
  | toggle =>
    have h := of_read_bind h
    cases visible : db.visible? key with
    | none =>
      rw [visible] at h
      obtain ⟨name, named, h⟩ := of_target_bind h
      refine course_of_setAtIfChanged ?_ named h
      rw [visible]
      exact nofun
    | some f =>
      rw [visible] at h
      cases f with
      | bool b =>
        obtain ⟨name, named, h⟩ := of_target_bind h
        refine course_of_setAtIfChanged ?_ named h
        rintro g hg
        rw [visible] at hg
        cases hg
        rfl
      | _ => cases h

/-! ## Kinds of what is overwritten -/

/-- A fact that a modification overwrites in its map keeps its kind, or takes the
    kind of what the key reads as. So it changes its kind exactly if it is global,
    is written to, and a layer covers it with a fact of another kind. -/
theorem overwritten_kind {m : Modification} {name : LayerName} {f : Fact}
    (conserves : m.effect ≠ .remove) (goes : m.target default = .named name)
    (held : (db.factsAt (name.slot db)).at? m.key = some f)
    (done : (m.apply look default).on db = (.ok changed, db')) :
    ∃ visible g, db.visible? m.key = some visible ∧
      (db'.factsAt (name.slot db)).at? m.key = some g ∧
      g.kind = (if changed then visible.kind else f.kind) ∧
      (g.kind ≠ f.kind ↔ changed = true ∧ name = .global ∧ visible.kind ≠ f.kind) := by
  obtain ⟨visible, seen⟩ := visible?_of_held held
  refine ⟨visible, ?_⟩
  cases course_of_ok done with
  | idle => exact ⟨f, seen, held, rfl, by simp⟩
  | erased name' named removes => exact absurd removes conserves
  | wrote name' new named given _ fits =>
    obtain rfl : name = name' := LayerRef.named.inj (goes.symm.trans named)
    obtain ⟨s, given⟩ := given
    obtain ⟨g, settled, kind⟩ := db.births.settle_some m.key new
    have kind : g.kind = visible.kind := kind.trans (fits visible seen)
    refine ⟨g, seen, ?_, kind, ?_⟩
    · rw [given] at settled ⊢
      rw [at?_write, settled]
    · rw [kind]
      cases name with
      | global => simp
      | inner =>
        -- nothing covers the innermost layer
        obtain rfl : visible = f := Option.some.inj (seen.symm.trans (visible?_of_inner held))
        simp

namespace Chest

/-- Five pieces of gold under what a layer says of them. -/
def chest (said : Fact) : Layered :=
  (Layered.ofFacts (.ofList [("gold", .int 5)])).write (.layer 0) (.name "gold") (some said)

/-- Replaces the gold, in a layer or by default where the rules write. -/
def recount (layer : Option LayerRef) (value : Fact) : Modification :=
  ⟨.name "gold", layer, .set (.constant value)⟩

/-- Gold that a layer gives as a float is set to an integer and stays a float. -/
theorem recount_stays_float :
    let done := ((recount none (.int 3)).apply Layered.read (.named .inner)).on (chest (.float 1.5))
    done.1.toOption = some true ∧
      ∃ g, (done.2.factsAt (.layer 0)).at? (.name "gold") = some g ∧ g.kind = .float := by
  have counts : (((recount none (.int 3)).apply Layered.read (.named .inner)).on
      (chest (.float 1.5))).1.toOption = some true := by decide +kernel
  refine ⟨counts, ?_⟩
  rcases done : ((recount none (.int 3)).apply Layered.read (.named .inner)).on
    (chest (.float 1.5)) with ⟨fault | changed, db'⟩
  · rw [done] at counts
    cases counts
  · have goes : (recount none (.int 3)).target (.named .inner) = .named .inner := rfl
    have conserves : (recount none (.int 3)).effect ≠ .remove := nofun
    obtain ⟨visible, g, seen, held, -, changes⟩ := overwritten_kind (f := .float 1.5) conserves
      goes (by decide +kernel) done
    refine ⟨g, held, ?_⟩
    by_contra other
    exact absurd (changes.mp other).2.1 nofun

/-- Gold that the global map gives as an integer is set to a text, because a layer
    gives a text for it. -/
theorem recount_changes_kind :
    let done := ((recount (some (.named .global)) (.string "none")).apply Layered.read
      (.named .inner)).on (chest (.string "lots"))
    done.1 = .ok true ∧ (chest (.string "lots")).global.at? (.name "gold") = some (.int 5) ∧
      done.2.global.at? (.name "gold") = some (.string "none") :=
  ⟨rfl, by decide +kernel, by decide +kernel⟩

end Chest

/-! ## Conditional modifications -/

/-- Whether a conditional modification has nothing to do by what the key reads as,
    although the map that it goes to holds something else. -/
def Overlooks (db : Layered) (key : Key) (name : LayerName) (f : Fact) : Prop :=
  name = .global ∧ Fact.isSame? (db.visible? key) f = true ∧
    Fact.isSame? (db.global.at? key) f = false

/-- A conditional modification is the store's own conditional write, once it has
    found that the key reads as something else. -/
theorem conditional_on {m : Modification} {value : ValueSpec} {outputs : List Document}
    {visible : Option Fact} {new f : Fact} (conditional : m.effect = .setIfChanged value outputs)
    (resolved : value.value (look db) = .ok new) (reads : db.read m.key = .ok visible)
    (accepted : Fact.assignable m.key visible new = .ok f) :
    (m.apply look default).on db
      = if Fact.isSame? visible f then (.ok false, db)
        else (Layered.setIfChanged m.key (.fact f) (m.target default)).on db := by
  have resolves : (value.resolve look).on db = (.ok new, db) := reading_of resolved
  have looks : (current m.key).on db = (.ok visible, db) := reading_of reads
  have accepts : (ofExcept (Fact.assignable m.key visible new)).on db = (.ok f, db) :=
    reading_of accepted
  rw [apply, conditional]
  dsimp only
  rw [bind_of_ok resolves, bind_of_ok looks, bind_of_ok accepts]
  split <;> rfl

/-- A conditional modification comes to the same as the store's own conditional
    write, in its answer and in every layer, except where it overlooks that the
    global map holds something else: there it changes nothing and says so, which
    the store's own never does. So after one that goes to the global map the fact
    stands there unless that was overlooked. -/
theorem conditional_agrees {m : Modification} {value : ValueSpec} {outputs : List Document}
    {name : LayerName} {visible : Option Fact} {new f : Fact}
    (conditional : m.effect = .setIfChanged value outputs) (goes : m.target default = .named name)
    (resolved : value.value (look db) = .ok new) (reads : db.read m.key = .ok visible)
    (accepted : Fact.assignable m.key visible new = .ok f) :
    let own := (Layered.setIfChanged m.key (.fact f) (.named name)).on db
    (¬Overlooks db m.key name f → (m.apply look default).on db = own) ∧
      (Overlooks db m.key name f →
        (m.apply look default).on db = (.ok false, db) ∧ own.1 ≠ .ok false) ∧
      ∀ changed db', (m.apply look default).on db = (.ok changed, db') → name = .global →
        (f.Stands (db'.global.at? m.key) ↔ ¬Overlooks db m.key name f) := by
  intro own
  have applied : (m.apply look default).on db
      = if Fact.isSame? visible f then (.ok false, db) else own := by
    rw [conditional_on conditional resolved reads accepted, goes]
  obtain ⟨scalar, rfl⟩ := of_read reads
  have agrees : ¬Overlooks db m.key name f → (m.apply look default).on db = own := by
    intro heeded
    rw [applied]
    split
    · rename_i found
      refine (setIfChanged_found scalar ?_).symm
      cases name with
      | inner => exact found
      | global => simpa [Overlooks, asked, found] using heeded
    · rfl
  have disagrees : Overlooks db m.key name f → (m.apply look default).on db = (.ok false, db) :=
    fun ⟨_, found, _⟩ => by rw [applied, if_pos found]
  refine ⟨agrees, fun overlooked => ⟨disagrees overlooked, fun same => ?_⟩, ?_⟩
  · obtain ⟨rfl, -, absent⟩ := overlooked
    obtain ⟨_, named, h⟩ := of_target_bind (Prod.ext same rfl : own = (.ok false, own.2))
    cases named
    obtain ⟨found, -⟩ | ⟨-, wrote, -⟩ := of_setAtIfChanged h
    · exact Bool.false_ne_true (absent.symm.trans found)
    · cases wrote
  · rintro changed db' done rfl
    by_cases overlooked : Overlooks db m.key .global f
    · rw [disagrees overlooked] at done
      cases done
      refine iff_of_false (fun stands => ?_) (not_not_intro overlooked)
      obtain ⟨-, found, absent⟩ := overlooked
      exact Bool.false_ne_true (absent.symm.trans ((Fact.stands_iff found _).mp stands))
    · refine iff_of_true ?_ overlooked
      obtain ⟨_, named, h⟩ := of_target_bind ((agrees overlooked).symm.trans done)
      cases named
      obtain ⟨found, -, rfl⟩ | ⟨-, -, s, given, rfl⟩ := of_setAtIfChanged h
      · exact .inl found
      · rw [given]
        have written := at?_write db .global s (some f)
        exact written ▸ Fact.stands_settle db.births s f

namespace Chest

/-- Replaces the gold of the global map if it reads as something else. -/
def correct (value : Fact) : Modification :=
  ⟨.name "gold", some (.named .global), .setIfChanged (.constant value) [.str "gold_changed"]⟩

/-- Under a layer that holds seven pieces, setting eight is the store's own
    conditional write, and the global map holds eight then. -/
theorem correct_to_eight :
    ((correct (.int 8)).apply Layered.read (.named .inner)).on (chest (.int 7))
        = (Layered.setIfChanged (.name "gold") (.fact (.int 8)) (.named .global)).on
          (chest (.int 7)) ∧
      ∃ changed db', ((correct (.int 8)).apply Layered.read (.named .inner)).on (chest (.int 7))
          = (.ok changed, db') ∧
        Fact.Stands (.int 8) (db'.global.at? (.name "gold")) := by
  have heeded : ¬Overlooks (chest (.int 7)) (.name "gold") .global (.int 8) := by
    rintro ⟨-, found, -⟩
    exact absurd found (by decide +kernel)
  have goes : (correct (.int 8)).target (.named .inner) = .named .global := rfl
  have resolved : (ValueSpec.constant (.int 8)).value ((chest (.int 7)).read) = .ok (.int 8) := rfl
  have reads : (chest (.int 7)).read (correct (.int 8)).key = .ok (some (.int 7)) := rfl
  obtain ⟨agrees, -, stands⟩ := conditional_agrees rfl goes resolved reads rfl
  exact ⟨agrees heeded, true, _, rfl, (stands true _ rfl rfl).mpr heeded⟩

/-- Under the same layer, setting seven is overlooked: the store's own conditional
    write would change the global map, which still holds five. -/
theorem correct_to_seven :
    ((correct (.int 7)).apply Layered.read (.named .inner)).on (chest (.int 7))
        = (.ok false, chest (.int 7)) ∧
      ((Layered.setIfChanged (.name "gold") (.fact (.int 7)) (.named .global)).on
        (chest (.int 7))).1 = .ok true ∧
      (chest (.int 7)).global.at? (.name "gold") = some (.int 5) :=
  ⟨rfl, rfl, by decide +kernel⟩

end Chest

end Modification

end Cascade
