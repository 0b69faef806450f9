-- SUMMARY: Computing with facts fails in evaluation, or because an integer is too large for a float, and in no other way.
import Cascade.Fact.Arithmetic
import Cascade.Proofs.Attempt

/-! # Computing with facts

An outcome is **computed** if it can only be missed by a fault of evaluation or
by an integer that is too large for a float. Every operator on facts has a
computed outcome, and sequences of computed outcomes are computed. -/

namespace Cascade

/-- Whether a fault can arise where facts are computed: those of evaluation, and
    the one of an integer that is too large for a float. -/
def Fault.isComputation : Fault → Bool
  | .tooLarge => true
  | f => f.isEvaluation

variable {α β : Type}

/-- An outcome that is missed by faults of computation only. -/
def Computed (x : Except Fault α) : Prop := ∀ f, x = .error f → f.isComputation

/-- What is computed fails in evaluation or for the size of an integer. -/
theorem Computed.cases {x : Except Fault α} (h : Computed x) {f : Fault} (hf : x = .error f) :
    f.isEvaluation = true ∨ f = .tooLarge := by
  have computation := h f hf
  cases f with
  | tooLarge => exact .inr rfl
  | _ => exact .inl computation

namespace Computed

theorem ok (a : α) : Computed (.ok a) := by
  intro f hf
  cases hf

theorem error {f : Fault} (h : f.isComputation) : Computed (.error f : Except Fault α) := by
  intro g hg
  cases hg
  exact h

theorem bind {x : Except Fault α} {g : α → Except Fault β} (hx : Computed x)
    (hg : ∀ a, x = .ok a → Computed (g a)) : Computed (x >>= g) := by
  cases x with
  | error f =>
    intro g hg
    cases hg
    exact hx f rfl
  | ok a => exact hg a rfl

/-- Whatever the first part gives, the second one is computed. -/
theorem seq {x : Except Fault α} {g : α → Except Fault β} (hx : Computed x)
    (hg : ∀ a, Computed (g a)) : Computed (x >>= g) :=
  hx.bind fun a _ => hg a

end Computed

namespace Attempt

variable {σ : Type}

/-- Whatever the state, an attempt is missed by faults of computation only. -/
def Computes (a : Attempt σ α) : Prop := ∀ s, Computed (a.on s).1

theorem computes_pure (a : α) : Computes (pure a : Attempt σ α) := fun _ => .ok a

theorem computes_ofExcept {x : Except Fault α} (h : Computed x) :
    Computes (ofExcept x : Attempt σ α) := fun _ => h

theorem computes_reading {f : σ → Except Fault α} (h : ∀ s, Computed (f s)) :
    Computes (reading f) := h

theorem Computes.bind {a : Attempt σ α} {f : α → Attempt σ β} (ha : Computes a)
    (hf : ∀ x, Computes (f x)) : Computes (a >>= f) := by
  intro s
  have first := ha s
  rcases h : a.on s with ⟨g | x, s'⟩
  · rw [bind_of_error h]
    rw [h] at first
    exact .error (first g rfl)
  · rw [bind_of_ok h]
    exact hf x s'

end Attempt

/-! ## Operators -/

namespace Fact

theorem computed_toFloat (f : Fact) : Computed f.toFloat := by
  unfold toFloat
  split
  · split
    · exact .ok _
    · exact .error rfl
  · exact .ok _
  · exact .ok _
  · exact .error rfl

theorem computed_floatArithmetic (op : Float → Float → Float) (l r : Fact) :
    Computed (floatArithmetic op l r) :=
  (computed_toFloat l).seq fun _ => (computed_toFloat r).seq fun _ => .ok _

theorem computed_arithmetic (op : Arithmetic) (l r : Fact) : Computed (arithmetic op l r) := by
  unfold arithmetic
  split
  · exact .ok _
  · split
    · exact .error rfl
    · split
      · split
        · exact .error rfl
        · exact .ok _
      · exact .error rfl
      · exact .ok _
      · exact .ok _
      · exact .ok _
      · split
        · exact .error rfl
        · exact .ok _
      · exact computed_floatArithmetic _ _ _
      · exact computed_floatArithmetic _ _ _
      · exact computed_floatArithmetic _ _ _
      · split
        · exact .error rfl
        · exact computed_floatArithmetic _ _ _

theorem computed_negate (f : Fact) : Computed f.negate := by
  unfold negate
  split
  · exact .ok _
  · exact .ok _
  · exact .ok _
  · exact .error rfl

theorem computed_compare (op : Comparison) (l r : Fact) : Computed (compare op l r) := by
  refine Computed.seq ?_ fun _ => .ok _
  unfold comparable
  split
  · exact .ok _
  · split
    · split
      · exact .error rfl
      · exact .ok _
    · exact .error rfl

theorem computed_ofKind (k : Kind) (d : Document) : Computed (ofKind k d) := by
  unfold ofKind
  split
  · exact .ok _
  · exact .ok _
  · split
    · exact .ok _
    · exact .error rfl
  · exact .ok _
  · exact .ok _
  · split
    · exact .ok _
    · exact .error rfl
  · split
    · exact .ok _
    · exact .error rfl
  · exact .error rfl

end Fact

end Cascade
