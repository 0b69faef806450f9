-- SUMMARY: Outcomes: what holds of every result that an outcome can have, through sequences and traversals.
import Mathlib.Data.List.Forall2

/-! # Outcomes

What a reader makes of a document or of a text is a result or a fault. `Yields`
says of the result, if there is one, that it has some property; it is built up
along the text of the reader. -/

namespace Cascade

variable {ε α β : Type}

/-- If an outcome is a result, the result has a property. -/
def Yields (x : Except ε α) (Q : α → Prop) : Prop := ∀ a, x = .ok a → Q a

namespace Yields

variable {x : Except ε α} {Q : α → Prop} {R : β → Prop}

theorem ok {a : α} (h : Q a) : Yields (.ok a : Except ε α) Q := by
  intro b hb
  cases hb
  exact h

theorem error (e : ε) : Yields (.error e : Except ε α) Q := by
  intro a ha
  cases ha

/-- Nothing is said of a result. -/
theorem trivial (x : Except ε α) : Yields x fun _ => True := fun _ _ => True.intro

/-- A result is what it is the result of. -/
theorem self (x : Except ε α) : Yields x fun a => x = .ok a := fun _ h => h

theorem bind {g : α → Except ε β} (hx : Yields x Q) (hg : ∀ a, Q a → Yields (g a) R) :
    Yields (x >>= g) R := by
  cases x with
  | error e => exact .error e
  | ok a => exact hg a (hx a rfl)

/-- The second part has results of some property, whatever the first one gives. -/
theorem seq {g : α → Except ε β} (hg : ∀ a, Yields (g a) R) : Yields (x >>= g) R :=
  (trivial x).bind fun a _ => hg a

/-- What is yielded element by element is yielded for the whole list. -/
theorem mapM {g : α → Except ε β} {xs : List α} (h : ∀ a ∈ xs, Yields (g a) R) :
    Yields (xs.mapM g) fun ys => ∀ b ∈ ys, R b := by
  induction xs with
  | nil =>
    refine .ok fun b hb => ?_
    cases hb
  | cons a xs ih =>
    rw [List.mapM_cons]
    refine (h a (List.mem_cons_self ..)).bind fun b hb => ?_
    refine (ih fun a' ha' => h a' (List.mem_cons_of_mem _ ha')).bind fun bs hbs => .ok ?_
    exact List.forall_mem_cons.mpr ⟨hb, hbs⟩

/-- Another word for the fault is nothing to the result. -/
theorem mapError {φ : Type} (h : Yields x Q) (g : ε → φ) : Yields (x.mapError g) Q := by
  cases x with
  | error e => exact .error (g e)
  | ok a => exact .ok (h a rfl)

end Yields

/-- Both parts of a sequence with a result have results. -/
theorem exists_of_bind_ok {x : Except ε α} {g : α → Except ε β} {b : β} (h : x >>= g = .ok b) :
    ∃ a, x = .ok a ∧ g a = .ok b := by
  cases x with
  | error e => cases h
  | ok a => exact ⟨a, rfl, h⟩

/-- A sequence fails in one of its parts. -/
theorem or_of_bind_error {x : Except ε α} {g : α → Except ε β} {e : ε} (h : x >>= g = .error e) :
    x = .error e ∨ ∃ a, x = .ok a ∧ g a = .error e := by
  cases x with
  | error e' =>
    cases h
    exact .inl rfl
  | ok a => exact .inr ⟨a, rfl, h⟩

/-- A fault in other words is the word for some fault. -/
theorem exists_of_mapError {φ : Type} {x : Except ε α} {g : ε → φ} {e : φ}
    (h : x.mapError g = .error e) : ∃ e', g e' = e := by
  cases x with
  | error e' =>
    cases h
    exact ⟨e', rfl⟩
  | ok a => cases h

/-! ## Traversals -/

/-- A traversal that fails does so at an element, with the fault of the element. -/
theorem exists_of_mapM_error {g : α → Except ε β} {xs : List α} {e : ε}
    (h : xs.mapM g = .error e) : ∃ a ∈ xs, g a = .error e := by
  induction xs with
  | nil => cases h
  | cons a xs ih =>
    rw [List.mapM_cons] at h
    cases ha : g a with
    | error e' =>
      rw [ha] at h
      cases h
      exact ⟨a, List.mem_cons_self .., ha⟩
    | ok b =>
      cases hxs : xs.mapM g with
      | error e' =>
        rw [ha, hxs] at h
        cases h
        obtain ⟨a', mem, ha'⟩ := ih hxs
        exact ⟨a', List.mem_cons_of_mem _ mem, ha'⟩
      | ok bs =>
        rw [ha, hxs] at h
        cases h

/-- A traversal that succeeds does so at every element. -/
theorem forall_of_mapM_ok {g : α → Except ε β} {xs : List α} {ys : List β}
    (h : xs.mapM g = .ok ys) : ∀ a ∈ xs, ∃ b, g a = .ok b := by
  induction xs generalizing ys with
  | nil => exact nofun
  | cons a xs ih =>
    rw [List.mapM_cons] at h
    cases ha : g a with
    | error e =>
      rw [ha] at h
      cases h
    | ok b =>
      cases hxs : xs.mapM g with
      | error e =>
        rw [ha, hxs] at h
        cases h
      | ok bs => exact List.forall_mem_cons.mpr ⟨⟨b, ha⟩, ih hxs⟩

/-- A traversal gives what comes of each element, in order. -/
theorem mapM_eq_ok {g : α → Except ε β} {xs : List α} {ys : List β} :
    xs.mapM g = .ok ys ↔ List.Forall₂ (fun a b => g a = .ok b) xs ys := by
  induction xs generalizing ys with
  | nil => cases ys <;> simp [pure, Except.pure]
  | cons a xs ih =>
    rw [List.mapM_cons, List.forall₂_cons_left_iff]
    cases ha : g a with
    | error e => simp [bind, Except.bind]
    | ok b =>
      simp only [bind, Except.bind]
      cases hxs : xs.mapM g with
      | error e => simp [← ih, hxs]
      | ok bs => simp [← ih, hxs, pure, Except.pure, eq_comm]

/-- A traversal that fails at no element gives what comes of each. -/
theorem mapM_of_ok {g : α → Except ε β} {f : α → β} {xs : List α}
    (h : ∀ a ∈ xs, g a = .ok (f a)) : xs.mapM g = .ok (xs.map f) := by
  induction xs with
  | nil => rfl
  | cons a xs ih =>
    obtain ⟨first, rest⟩ := List.forall_mem_cons.mp h
    rw [List.mapM_cons, first, ih rest]
    rfl

/-- What was written element by element is read element by element. -/
theorem mapM_map_of_ok {write : β → α} {read : α → Except ε β} {xs : List β}
    (h : ∀ x ∈ xs, read (write x) = .ok x) : (xs.map write).mapM read = .ok xs := by
  induction xs with
  | nil => rfl
  | cons x xs ih =>
    obtain ⟨first, rest⟩ := List.forall_mem_cons.mp h
    rw [List.map_cons, List.mapM_cons, first, ih rest]
    rfl

/-! ## Results looked at -/

/-- Where something was seen of a result there is a result, and it was seen of it. -/
theorem exists_of_map_toOption {x : Except ε α} {g : α → β} {b : β}
    (h : x.toOption.map g = some b) : ∃ a, x = .ok a ∧ g a = b := by
  cases x with
  | error e => cases h
  | ok a => exact ⟨a, rfl, Option.some.inj h⟩

end Cascade
