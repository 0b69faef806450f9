-- SUMMARY: Steps on a state that may fail, where the state stays as the step left it either way.
import Cascade.Fault

/-! # Attempts

An attempt takes a state and gives a result or a fault together with the state
as it was left. What an attempt had written before it failed stays written:
whoever wants it undone has to undo it. -/

namespace Cascade

/-- A step on a state that may fail. -/
abbrev Attempt (σ α : Type) := ExceptT Fault (StateM σ) α

namespace Attempt

variable {σ τ α : Type}

def on (a : Attempt σ α) (s : σ) : Except Fault α × σ := a.run s

/-- An attempt given by its outcome and the state it leaves. -/
def make (f : σ → Except Fault α × σ) : Attempt σ α := ExceptT.mk f

def ofExcept (e : Except Fault α) : Attempt σ α := make fun s => (e, s)

/-- A result that depends on the state and leaves it alone. -/
def reading (f : σ → Except Fault α) : Attempt σ α := make fun s => (f s, s)

/-- An attempt on a part of a state. -/
def zoom (part : τ → σ) (replace : σ → τ → τ) (a : Attempt σ α) : Attempt τ α :=
  make fun t =>
    let (outcome, s) := a.on (part t)
    (outcome, replace s t)

/-- An attempt that never fails and gives its outcome as a result. -/
def caught (a : Attempt σ α) : Attempt σ (Except Fault α) :=
  make fun s =>
    let (outcome, s) := a.on s
    (.ok outcome, s)

/-! ## Outcomes -/

variable {β : Type}

@[simp]
theorem on_pure (a : α) (s : σ) : on (pure a) s = (.ok a, s) := rfl

@[simp]
theorem on_throw (f : Fault) (s : σ) : on (throw f : Attempt σ α) s = (.error f, s) := rfl

@[simp]
theorem on_get (s : σ) : on (get : Attempt σ σ) s = (.ok s, s) := rfl

@[simp]
theorem on_set (new s : σ) : on (set new : Attempt σ PUnit) s = (.ok ⟨⟩, new) := rfl

@[simp]
theorem on_modify (f : σ → σ) (s : σ) :
    on (modify f : Attempt σ PUnit) s = (.ok ⟨⟩, f s) := rfl

@[simp]
theorem on_make (f : σ → Except Fault α × σ) (s : σ) : (make f).on s = f s := rfl

@[simp]
theorem on_ofExcept (e : Except Fault α) (s : σ) : on (ofExcept e) s = (e, s) := rfl

@[simp]
theorem on_reading (f : σ → Except Fault α) (s : σ) : on (reading f) s = (f s, s) := rfl

@[simp]
theorem on_zoom (part : τ → σ) (replace : σ → τ → τ) (a : Attempt σ α) (t : τ) :
    (zoom part replace a).on t = ((a.on (part t)).1, replace (a.on (part t)).2 t) := rfl

/-- A caught attempt gives its outcome and leaves the state as the attempt did. -/
@[simp]
theorem on_caught (a : Attempt σ α) (s : σ) :
    a.caught.on s = (.ok (a.on s).1, (a.on s).2) := rfl

/-- Two attempts, one after the other: a fault of the first one ends both. -/
theorem on_bind (a : Attempt σ α) (f : α → Attempt σ β) (s : σ) :
    on (a >>= f) s =
      match a.on s with
      | (.ok x, s') => (f x).on s'
      | (.error e, s') => (.error e, s') := by
  change (do ExceptT.bindCont f (← a) : StateM σ (Except Fault β)) s = _
  simp only [on, ExceptT.run, bind, StateT.bind]
  rcases a s with ⟨_ | _, s'⟩ <;> rfl

end Attempt

end Cascade
