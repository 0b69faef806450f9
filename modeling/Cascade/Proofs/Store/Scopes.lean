-- SUMMARY: The scopes of a store: writes leave them alone, and what opening and closing one comes to.
import Cascade.Proofs.Engine.Nameless
import Cascade.Proofs.Store.Restoring

/-! # Scopes of a store

The scopes that are open show in the frames of a store, which writes leave alone.
Opening a scope adds it at the end. Closing one takes the last one away, or is
refused. -/

namespace Cascade

open Attempt

namespace Layered

theorem scopes_of_frames {db db' : Layered} (h : db'.frames = db.frames) :
    db'.scopes = db.scopes := by
  have byFrames (db : Layered) : db.scopes = (db.frames.map (·.2)).dropLast.reverse := by
    simp [scopes, frames, List.map_dropLast, Function.comp_def]
  rw [byFrames, byFrames, h]

theorem frames_of_writes {db db' : Layered} (steps : Relation.ReflTransGen Written db db') :
    db'.frames = db.frames := by
  induction steps with
  | refl => rfl
  | tail _ step ih =>
    obtain ⟨slot, key, content, rfl⟩ := step
    rw [write_eq, ← ih]
    exact frames_modifyAt slot _ _

theorem frames_stored (layer : LayerName) (facts : List (String × Fact)) (db : Layered) :
    (db.stored layer facts).frames = db.frames :=
  frames_of_writes (steps_foldl (fun db (p : String × Fact) =>
    .single ⟨layer.slot db, .name p.1, some p.2, rfl⟩) facts db)

theorem scopes_pushed (name : String) (db : Layered) :
    (db.pushed name).scopes = db.scopes ++ [name] := by
  simp [scopes, layers, pushed]

/-- The scope of the layer that is dropped was the last one. -/
theorem scopes_of_popped? {db rest : Layered} (h : db.popped? = some rest) :
    db.scopes = rest.scopes ++ [db.inner.scope] := by
  obtain ⟨outer, -⟩ := of_popped? h
  simp [scopes, layers, outer]

/-- Closing a scope drops the layer that it opened, if that is the innermost one
    and not the lowest, and is refused otherwise. -/
theorem popScope_on (name : String) (db : Layered) :
    (∃ f, (popScope (.text name)).on db = (.error f, db)) ∨
      ∃ rest, db.popped? = some rest ∧ db.inner.scope = name ∧
        (popScope (.text name)).on db = (.ok db.inner.facts, rest) := by
  unfold popScope
  rw [bind_of_ok (on_get db)]
  cases hp : db.popped? with
  | none => exact .inl ⟨_, rfl⟩
  | some rest =>
    by_cases same : db.inner.scope = name
    · refine .inr ⟨rest, rfl, same, ?_⟩
      have named : (Datum.text name).same (.text db.inner.scope) = true := by
        simp [Datum.text, Datum.same, Document.same, same]
      simp only [named]
      rfl
    · have named : (Datum.text name).same (.text db.inner.scope) = false := by
        simp [Datum.text, Datum.same, Document.same, Ne.symm same]
      refine .inl ⟨.badPop (.otherScope (.text name) db.inner.scope), ?_⟩
      simp only [named]
      rfl

end Layered

end Cascade
