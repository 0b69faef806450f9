-- SUMMARY: Reasoning about attempts: sequences opened up, attempts that take certain steps only, that cannot tell related states apart or mirror each other there, that fail without a trace, that leave a part of the state alone, or that agree with a reference.
import Mathlib.Logic.Relation
import Cascade.Attempt

/-! # Reasoning about attempts

A sequence of attempts is opened at its binds. Other properties are built up
along the text of an attempt: that it changes the state by steps of one kind
only (`Takes`), that what holds of the state goes on holding (`Maintains`), that
two of its runs agree when they start from related states (`Respects`) or do so
but for differences that do not count and faults that are excused (`Mirrors`),
that two of them run side by side (`Parallel`), that it changes nothing if it
fails (`Cautious`), that it leaves a part of the state alone (`Keeps`), and that
it agrees with a reference that has no state (`Agrees`). -/

namespace Cascade.Attempt

variable {σ α β : Type}

/-! ## Sequences -/

/-- After an attempt that succeeds, the next one goes on from the state it left. -/
theorem bind_of_ok {a : Attempt σ α} {s s' : σ} {x : α} (h : a.on s = (.ok x, s'))
    (f : α → Attempt σ β) : (a >>= f).on s = (f x).on s' := by
  rw [on_bind, h]

/-- After an attempt that fails, nothing goes on. -/
theorem bind_of_error {a : Attempt σ α} {s s' : σ} {e : Fault} (h : a.on s = (.error e, s'))
    (f : α → Attempt σ β) : (a >>= f).on s = (.error e, s') := by
  rw [on_bind, h]

/-- The fault that ends an attempt ends the sequence that it begins. -/
theorem bind_fails {a : Attempt σ α} {s : σ} {e : Fault} (h : (a.on s).1 = .error e)
    (f : α → Attempt σ β) : ((a >>= f).on s).1 = .error e := by
  rcases ha : a.on s with ⟨x | x, s'⟩
  · rw [bind_of_error ha]
    rw [ha] at h
    exact congrArg Except.error (Except.error.inj h)
  · rw [ha] at h
    cases h

/-- A sequence whose second part cannot fail fails where the first one does. -/
theorem bind_fails_iff {a : Attempt σ α} {f : α → Attempt σ β} {s s' : σ} {e : Fault}
    (returns : ∀ x t, ∃ y t', (f x).on t = (.ok y, t')) :
    (a >>= f).on s = (.error e, s') ↔ a.on s = (.error e, s') := by
  rcases ha : a.on s with ⟨x | x, t⟩
  · rw [bind_of_error ha]
    simp
  · obtain ⟨y, t', ht⟩ := returns x t
    rw [bind_of_ok ha, ht]
    simp

/-- Both parts of a sequence that succeeds have succeeded. -/
theorem of_bind_ok {a : Attempt σ α} {f : α → Attempt σ β} {s s'' : σ} {y : β}
    (h : (a >>= f).on s = (.ok y, s'')) :
    ∃ x s', a.on s = (.ok x, s') ∧ (f x).on s' = (.ok y, s'') := by
  rcases ha : a.on s with ⟨x | x, s'⟩
  · rw [bind_of_error ha] at h
    cases h
  · rw [bind_of_ok ha] at h
    exact ⟨x, s', rfl, h⟩

/-- An attempt whose outcome is a result. -/
theorem of_isSome {a : Attempt σ α} {s : σ} (h : (a.on s).1.toOption.isSome) :
    ∃ x s', a.on s = (.ok x, s') := by
  rcases ha : a.on s with ⟨f | x, s'⟩
  · rw [ha] at h
    cases h
  · exact ⟨x, s', rfl⟩

theorem of_not_error {a : Attempt σ α} {s : σ} (h : ∀ f, (a.on s).1 ≠ .error f) :
    ∃ x s', a.on s = (.ok x, s') := by
  rcases ha : a.on s with ⟨f | x, s'⟩
  · exact absurd (congrArg Prod.fst ha) (h f)
  · exact ⟨x, s', rfl⟩

/-- An attempt whose outcome is a given result. -/
theorem of_toOption {a : Attempt σ α} {s : σ} {x : α} (h : (a.on s).1.toOption = some x) :
    a.on s = (.ok x, (a.on s).2) := by
  rcases ha : a.on s with ⟨f | y, s'⟩
  · rw [ha] at h
    cases h
  · rw [ha] at h
    cases h
    rfl

/-- An attempt whose outcome is no result. -/
theorem of_not_isOk {a : Attempt σ α} {s : σ} (h : ¬(a.on s).1.isOk) :
    ∃ f s', a.on s = (.error f, s') := by
  rcases ha : a.on s with ⟨f | x, s'⟩
  · exact ⟨f, s', rfl⟩
  · rw [ha] at h
    exact absurd rfl h

/-- What an attempt without effects and faults gives. -/
theorem of_pure_ok {x y : α} {s s' : σ} (h : on (pure x) s = (.ok y, s')) : x = y ∧ s = s' := by
  cases h
  exact ⟨rfl, rfl⟩

/-- What an attempt gives whose outcome does not depend on the state. -/
theorem of_ofExcept_ok {x : Except Fault α} {y : α} {s s' : σ}
    (h : (ofExcept x).on s = (.ok y, s')) : x = .ok y ∧ s = s' := by
  rw [on_ofExcept] at h
  exact Prod.mk.inj h

/-- What is read is the outcome, and the state stays. -/
theorem reading_of {read : σ → Except Fault α} {s : σ} {x : Except Fault α} (h : read s = x) :
    (reading read).on s = (x, s) := by
  rw [on_reading, h]

/-- What goes on after a reading goes on from the same state. -/
theorem of_reading_bind {read : σ → Except Fault α} {f : α → Attempt σ β} {s s' : σ} {y : β}
    (h : (reading read >>= f).on s = (.ok y, s')) :
    ∃ x, read s = .ok x ∧ (f x).on s = (.ok y, s') := by
  rw [on_bind, on_reading] at h
  cases found : read s with
  | error e =>
    rw [found] at h
    cases h
  | ok x =>
    rw [found] at h
    exact ⟨x, rfl, h⟩

theorem of_given_bind {given : Except Fault α} {f : α → Attempt σ β} {s s' : σ} {y : β}
    (h : (ofExcept given >>= f).on s = (.ok y, s')) :
    ∃ x, given = .ok x ∧ (f x).on s = (.ok y, s') := of_reading_bind h

/-- What is made of the result of an attempt is nothing to the state. -/
theorem left_then_pure (a : Attempt σ α) (g : α → β) (s : σ) :
    (on (a >>= fun x => pure (g x)) s).2 = (a.on s).2 := by
  rw [on_bind]
  rcases a.on s with ⟨x | x, s'⟩ <;> rfl

/-- What is made of the result of an attempt is made of nothing if it fails. -/
theorem outcome_then_pure (a : Attempt σ α) (g : α → β) (s : σ) :
    (on (a >>= fun x => pure (g x)) s).1 = (a.on s).1.map g := by
  rw [on_bind]
  rcases a.on s with ⟨x | x, s'⟩ <;> rfl

/-! ## Steps -/

/-- Whatever comes of the attempt, it gets from the state to the one it leaves
    by steps of one kind. -/
def Takes (step : σ → σ → Prop) (a : Attempt σ α) : Prop :=
  ∀ s, Relation.ReflTransGen step s (a.on s).2

namespace Takes

variable {step : σ → σ → Prop} {a : Attempt σ α}

theorem pure (x : α) : Takes step (pure x : Attempt σ α) := fun _ => .refl

theorem throw (f : Fault) : Takes step (throw f : Attempt σ α) := fun _ => .refl

theorem ofExcept (e : Except Fault α) : Takes step (ofExcept e) := fun _ => .refl

theorem reading (f : σ → Except Fault α) : Takes step (reading f) := fun _ => .refl

theorem modify {f : σ → σ} (h : ∀ s, step s (f s)) :
    Takes step (modify f : Attempt σ PUnit) :=
  fun s => .single (h s)

/-- The second part only has to take such steps for results that the first one
    can give. -/
theorem bind {f : α → Attempt σ β} (ha : Takes step a)
    (hf : ∀ x, (∃ s, (a.on s).1 = .ok x) → Takes step (f x)) : Takes step (a >>= f) := by
  intro s
  have first := ha s
  rcases h : a.on s with ⟨x | x, s'⟩
  · rw [bind_of_error h]
    simpa only [h] using first
  · rw [bind_of_ok h]
    rw [h] at first
    exact first.trans (hf x ⟨s, by rw [h]⟩ s')

/-- An attempt that begins by looking at the whole state. -/
theorem get {f : σ → Attempt σ β} (h : ∀ s, Relation.ReflTransGen step s ((f s).on s).2) :
    Takes step (get >>= f) := by
  intro s
  rw [bind_of_ok (on_get s)]
  exact h s

/-- A caught attempt takes the steps of the attempt. -/
theorem caught (ha : Takes step a) : Takes step a.caught := ha

theorem mono {step' : σ → σ → Prop} (weaker : ∀ s s', step s s' → step' s s')
    (ha : Takes step a) : Takes step' a :=
  fun s => Relation.ReflTransGen.mono weaker _ _ (ha s)

end Takes

/-- Whatever comes of the attempt, a property of the state that holds before it
    holds after it. -/
abbrev Maintains (P : σ → Prop) (a : Attempt σ α) : Prop := Takes (fun s s' => P s → P s') a

theorem Maintains.holds {P : σ → Prop} {a : Attempt σ α} (ha : Maintains P a) {s : σ}
    (h : P s) : P (a.on s).2 := by
  have steps := ha s
  generalize (a.on s).2 = s' at steps
  induction steps with
  | refl => exact h
  | tail _ step ih => exact step ih

/-- An attempt that maintains a property where it holds. -/
theorem Maintains.of_holds {P : σ → Prop} {a : Attempt σ α} (h : ∀ s, P s → P (a.on s).2) :
    Maintains P a := fun s => .single (h s)

/-- Changes along a list are steps if each of them is. -/
theorem steps_foldl {step : σ → σ → Prop} {f : σ → α → σ}
    (h : ∀ s x, Relation.ReflTransGen step s (f s x)) (xs : List α) (s : σ) :
    Relation.ReflTransGen step s (xs.foldl f s) := by
  induction xs generalizing s with
  | nil => exact .refl
  | cons x xs ih => exact (h s x).trans (ih (f s x))

/-! ## Related states -/

/-- From related states, an attempt has one outcome and leaves related states. -/
def Respects (rel : σ → σ → Prop) (a : Attempt σ α) : Prop :=
  ∀ s t, rel s t → (a.on s).1 = (a.on t).1 ∧ rel (a.on s).2 (a.on t).2

namespace Respects

variable {rel : σ → σ → Prop} {a : Attempt σ α}

theorem pure (x : α) : Respects rel (pure x : Attempt σ α) := fun _ _ h => ⟨rfl, h⟩

theorem throw (f : Fault) : Respects rel (throw f : Attempt σ α) := fun _ _ h => ⟨rfl, h⟩

theorem ofExcept (e : Except Fault α) : Respects rel (ofExcept e) := fun _ _ h => ⟨rfl, h⟩

theorem reading {f : σ → Except Fault α} (hf : ∀ s t, rel s t → f s = f t) :
    Respects rel (reading f) :=
  fun s t h => ⟨hf s t h, h⟩

theorem modify {f : σ → σ} (hf : ∀ s t, rel s t → rel (f s) (f t)) :
    Respects rel (modify f : Attempt σ PUnit) :=
  fun s t h => ⟨rfl, hf s t h⟩

/-- What succeeds from one of two related states succeeds from the other. -/
theorem of_ok {s t s' : σ} {x : α} (ha : Respects rel a) (related : rel s t)
    (h : a.on s = (.ok x, s')) : ∃ t', a.on t = (.ok x, t') ∧ rel s' t' := by
  obtain ⟨same, left⟩ := ha s t related
  rw [h] at same left
  rcases ht : a.on t with ⟨y, t'⟩
  rw [ht] at same left
  have same : .ok x = y := same
  exact ⟨t', by rw [same], left⟩

/-- The second part only has to respect the relation for results that the first
    one can give. -/
theorem bind {f : α → Attempt σ β} (ha : Respects rel a)
    (hf : ∀ x, (∃ s, (a.on s).1 = .ok x) → Respects rel (f x)) : Respects rel (a >>= f) := by
  intro s t hst
  obtain ⟨same, related⟩ := ha s t hst
  rcases hs : a.on s with ⟨x | x, s'⟩ <;> rcases ht : a.on t with ⟨y | y, t'⟩ <;>
    rw [hs, ht] at same related
  · cases same
    rw [bind_of_error hs, bind_of_error ht]
    exact ⟨rfl, related⟩
  · cases same
  · cases same
  · cases same
    rw [bind_of_ok hs, bind_of_ok ht]
    exact hf x ⟨s, by rw [hs]⟩ s' t' related

/-- The second part respects the relation whatever the first one gives. -/
theorem seq {f : α → Attempt σ β} (ha : Respects rel a) (hf : ∀ x, Respects rel (f x)) :
    Respects rel (a >>= f) :=
  ha.bind fun x _ => hf x

/-- An attempt that begins by looking at the whole state and sees only what
    related states have in common. -/
theorem look {f : σ → Attempt σ β} (same : ∀ s t, rel s t → f s = f t)
    (hf : ∀ s, Respects rel (f s)) : Respects rel (get >>= f) := by
  intro s t h
  rw [bind_of_ok (on_get s), bind_of_ok (on_get t), ← same s t h]
  exact hf s s t h

/-- Whether an attempt fails is its result when it is caught. -/
theorem caught (ha : Respects rel a) : Respects rel a.caught := by
  intro s t h
  obtain ⟨same, related⟩ := ha s t h
  rw [on_caught, on_caught, same]
  exact ⟨rfl, related⟩

end Respects

/-! ## Alike results -/

/-- What one attempt gives from a state, the other one gives from a related state,
    but for differences that do not count, and leaves related states; or else it
    fails with a fault that is excused. -/
def Mirrors (rel : σ → σ → Prop) (excused : Fault → Prop) (like : α → β → Prop)
    (a : Attempt σ α) (b : Attempt σ β) : Prop :=
  ∀ s t, rel s t → ∀ x s', a.on s = (.ok x, s') →
    (∃ y t', b.on t = (.ok y, t') ∧ like x y ∧ rel s' t') ∨
      ∃ f, (b.on t).1 = .error f ∧ excused f

namespace Mirrors

variable {γ δ : Type} {rel : σ → σ → Prop} {excused : Fault → Prop} {like : α → β → Prop}
  {like' : γ → δ → Prop} {a : Attempt σ α} {b : Attempt σ β}

theorem pure {x : α} {y : β} (h : like x y) :
    Mirrors rel excused like (pure x : Attempt σ α) (pure y : Attempt σ β) := by
  intro s t related x' s' ok
  obtain ⟨rfl, rfl⟩ := of_pure_ok ok
  exact .inl ⟨y, t, rfl, h, related⟩

/-- An attempt that fails has no results. -/
theorem throw (f : Fault) (b : Attempt σ β) :
    Mirrors rel excused like (throw f : Attempt σ α) b := by
  intro s t related x s' ok
  cases ok

/-- An attempt that cannot tell related states apart. -/
theorem of_respects {a : Attempt σ α} (ha : Respects rel a) : Mirrors rel excused Eq a a := by
  intro s t related x s' ok
  obtain ⟨t', ok', left⟩ := ha.of_ok related ok
  exact .inl ⟨x, t', ok', rfl, left⟩

theorem bind {f : α → Attempt σ γ} {g : β → Attempt σ δ} (ha : Mirrors rel excused like a b)
    (hf : ∀ x y, like x y → Mirrors rel excused like' (f x) (g y)) :
    Mirrors rel excused like' (a >>= f) (b >>= g) := by
  intro s t related z s'' ok
  obtain ⟨x, s', first, second⟩ := of_bind_ok ok
  obtain ⟨y, t', first', alike, left⟩ | ⟨fault, failed, excuse⟩ := ha s t related x s' first
  · rw [bind_of_ok first']
    exact hf x y alike s' t' left z s'' second
  · exact .inr ⟨fault, bind_fails failed g, excuse⟩

/-- Attempts that begin in the same way. -/
theorem after {a : Attempt σ α} {f : α → Attempt σ γ} {g : α → Attempt σ δ}
    (ha : Respects rel a) (hf : ∀ x, Mirrors rel excused like' (f x) (g x)) :
    Mirrors rel excused like' (a >>= f) (a >>= g) := by
  have first : Mirrors rel excused Eq a a := .of_respects ha
  refine first.bind fun x y same => ?_
  rw [← same]
  exact hf x

/-- Attempts that begin by looking at the whole state. -/
theorem get {f : σ → Attempt σ γ} {g : σ → Attempt σ δ}
    (h : ∀ s t, rel s t → Mirrors rel excused like' (f s) (g t)) :
    Mirrors rel excused like' (get >>= f) (get >>= g) := by
  intro s t related z s'' ok
  rw [bind_of_ok (on_get s)] at ok
  rw [bind_of_ok (on_get t)]
  exact h s t related s t related z s'' ok

end Mirrors

/-! ## Attempts side by side -/

/-- Two outcomes that are alike results or the same fault. -/
inductive Paired (like : α → β → Prop) : Except Fault α → Except Fault β → Prop
  | result {x : α} {y : β} : like x y → Paired like (.ok x) (.ok y)
  | fault (f : Fault) : Paired like (.error f) (.error f)

/-- What is made of alike results, if there are any, is the same. -/
theorem Paired.map_eq {γ : Type} {f : α → γ} {g : β → γ} {x : Except Fault α}
    {y : Except Fault β} (h : Paired (fun a b => f a = g b) x y) : x.map f = y.map g := by
  cases h with
  | result same => exact congrArg Except.ok same
  | fault f => rfl

/-- From two states, which may be of different types, two attempts have alike
    outcomes and leave related states, also if they fail. -/
def Parallel {τ : Type} (rel : σ → τ → Prop) (like : α → β → Prop) (a : Attempt σ α)
    (b : Attempt τ β) (s : σ) (t : τ) : Prop :=
  Paired like (a.on s).1 (b.on t).1 ∧ rel (a.on s).2 (b.on t).2

namespace Parallel

variable {τ γ δ : Type} {rel : σ → τ → Prop} {like : α → β → Prop} {like' : γ → δ → Prop}
  {a : Attempt σ α} {b : Attempt τ β} {s : σ} {t : τ}

theorem pure {x : α} {y : β} (related : rel s t) (h : like x y) :
    Parallel rel like (pure x : Attempt σ α) (pure y : Attempt τ β) s t :=
  ⟨.result h, related⟩

/-- Outcomes on which the states have no bearing. -/
theorem ofExcept (related : rel s t) (x : Except Fault α) :
    Parallel rel Eq (ofExcept x : Attempt σ α) (ofExcept x : Attempt τ α) s t := by
  cases x with
  | ok x => exact ⟨.result rfl, related⟩
  | error f => exact ⟨.fault f, related⟩

/-- Outcomes that depend only on what the states have in common. -/
theorem reading {f : σ → Except Fault α} {g : τ → Except Fault α} (related : rel s t)
    (same : f s = g t) : Parallel rel Eq (reading f) (reading g) s t := by
  rw [Parallel, on_reading, on_reading, same]
  exact ofExcept related (g t)

theorem modify {f : σ → σ} {g : τ → τ} (h : rel (f s) (g t)) :
    Parallel rel Eq (modify f : Attempt σ PUnit) (modify g : Attempt τ PUnit) s t :=
  ⟨.result rfl, h⟩

/-- Attempts go on side by side from the states that the first ones leave. -/
theorem bind {f : α → Attempt σ γ} {g : β → Attempt τ δ} (ha : Parallel rel like a b s t)
    (hf : ∀ x y s' t', a.on s = (.ok x, s') → b.on t = (.ok y, t') → like x y → rel s' t' →
      Parallel rel like' (f x) (g y) s' t') :
    Parallel rel like' (a >>= f) (b >>= g) s t := by
  obtain ⟨outcomes, left⟩ := ha
  rcases hs : a.on s with ⟨x, s'⟩
  rcases ht : b.on t with ⟨y, t'⟩
  rw [hs, ht] at outcomes left
  cases outcomes with
  | result alike =>
    rw [Parallel, bind_of_ok hs, bind_of_ok ht]
    exact hf _ _ s' t' hs ht alike left
  | fault f =>
    rw [Parallel, bind_of_error hs, bind_of_error ht]
    exact ⟨.fault f, left⟩

/-- Attempts that begin in the same way. -/
theorem after {b : Attempt τ α} {f : α → Attempt σ γ} {g : α → Attempt τ δ}
    (ha : Parallel rel Eq a b s t)
    (hf : ∀ x s' t', a.on s = (.ok x, s') → b.on t = (.ok x, t') → rel s' t' →
      Parallel rel like' (f x) (g x) s' t') :
    Parallel rel like' (a >>= f) (b >>= g) s t := by
  refine ha.bind fun x y s' t' hs ht same related => ?_
  obtain rfl : x = y := same
  exact hf x s' t' hs ht related

end Parallel

/-! ## Faults that leave the state -/

/-- Whatever comes of the attempt, the state stays. -/
def Idle (a : Attempt σ α) : Prop := ∀ s, (a.on s).2 = s

/-- An attempt that fails has not changed the state. -/
structure Cautious (a : Attempt σ α) : Prop where
  unchanged : ∀ {s s' f}, a.on s = (.error f, s') → s' = s

namespace Cautious

variable {a : Attempt σ α}

theorem of_idle (h : Idle a) : Cautious a := by
  constructor
  intro s s' f hf
  have stays := h s
  rw [hf] at stays
  exact stays

theorem throw (f : Fault) : Cautious (throw f : Attempt σ α) := of_idle fun _ => rfl

/-- An attempt is cautious if it is so after its first, idle part. -/
theorem after {f : α → Attempt σ β} (ha : Idle a) (hf : ∀ x, Cautious (f x)) :
    Cautious (a >>= f) := by
  constructor
  intro s s' e h
  have stays := ha s
  rcases hs : a.on s with ⟨x | x, s₁⟩
  · rw [bind_of_error hs] at h
    rw [hs] at stays
    cases h
    exact stays
  · rw [bind_of_ok hs] at h
    rw [hs] at stays
    have stays : s₁ = s := stays
    rw [stays] at h
    exact (hf x).unchanged h

/-- What cannot fail may come last, whatever it does. -/
theorem then_returns {f : α → Attempt σ β} (ha : Cautious a)
    (returns : ∀ x t, ∃ y t', (f x).on t = (.ok y, t')) : Cautious (a >>= f) :=
  ⟨fun h => ha.unchanged ((bind_fails_iff returns).mp h)⟩

/-- An attempt that begins by looking at the whole state. -/
theorem get {f : σ → Attempt σ β} (h : ∀ s, Cautious (f s)) : Cautious (get >>= f) := by
  constructor
  intro s s' e fails
  rw [bind_of_ok (on_get s)] at fails
  exact (h s).unchanged fails

/-- An attempt on a part of a state that can be put back. -/
theorem zoom {τ : Type} {part : τ → σ} {replace : σ → τ → τ} (ha : Cautious a)
    (back : ∀ t, replace (part t) t = t) : Cautious (zoom part replace a) := by
  constructor
  intro t t' e h
  rw [on_zoom] at h
  obtain ⟨failed, rfl⟩ := Prod.mk.inj h
  have stays : (a.on (part t)).2 = part t := ha.unchanged (Prod.ext failed rfl)
  rw [stays, back]

/-- What cannot fail may come last. -/
theorem then_pure (ha : Cautious a) (g : α → β) : Cautious (a >>= fun x => Pure.pure (g x)) :=
  ha.then_returns fun x t => ⟨g x, t, rfl⟩

end Cautious

theorem idle_ofExcept (e : Except Fault α) : Idle (ofExcept e : Attempt σ α) := fun _ => rfl

theorem idle_reading (f : σ → Except Fault α) : Idle (reading f) := fun _ => rfl

theorem cautious_modify (f : σ → σ) : Cautious (modify f : Attempt σ PUnit) := by
  constructor
  intro s s' e h
  cases h

/-! ## Parts of the state that stay -/

/-- Whatever comes of the attempt, a part of the state stays. -/
def Keeps {γ : Type} (part : σ → γ) (a : Attempt σ α) : Prop :=
  ∀ s, part (a.on s).2 = part s

namespace Keeps

variable {γ : Type} {part : σ → γ} {a : Attempt σ α}

theorem pure (x : α) : Keeps part (pure x : Attempt σ α) := fun _ => rfl

theorem modify {f : σ → σ} (h : ∀ s, part (f s) = part s) :
    Keeps part (modify f : Attempt σ PUnit) := h

theorem bind {f : α → Attempt σ β} (ha : Keeps part a) (hf : ∀ x, Keeps part (f x)) :
    Keeps part (a >>= f) := by
  intro s
  have first := ha s
  rcases h : a.on s with ⟨x | x, s'⟩
  · rw [bind_of_error h]
    simpa only [h] using first
  · rw [bind_of_ok h, hf x s']
    simpa only [h] using first

/-- An attempt that begins by looking at the whole state. -/
theorem get {f : σ → Attempt σ β} (h : ∀ s, part ((f s).on s).2 = part s) :
    Keeps part (get >>= f) := by
  intro s
  rw [bind_of_ok (on_get s)]
  exact h s

/-- An attempt that begins with an outcome which does not depend on the state. -/
theorem given {x : Except Fault α} {f : α → Attempt σ β} {s : σ}
    (h : ∀ y, x = .ok y → part ((f y).on s).2 = part s) :
    part ((ofExcept x >>= f).on s).2 = part s := by
  rw [on_bind, on_ofExcept]
  cases x with
  | error f => rfl
  | ok y => exact h y rfl

/-- An attempt that puts a changed state in place of the present one goes on
    from there. -/
theorem set {f : PUnit → Attempt σ β} {s new : σ} (same : part new = part s)
    (hf : Keeps part (f ⟨⟩)) : part ((set new >>= f).on s).2 = part s := by
  rw [bind_of_ok (on_set new s), hf new, same]

end Keeps

/-- Steps that leave a part of the state alone, all of them together do. -/
theorem Takes.keeps {γ : Type} {part : σ → γ} {step : σ → σ → Prop} {a : Attempt σ α}
    (ha : Takes step a) (same : ∀ s s', step s s' → part s' = part s) : Keeps part a := by
  intro s
  have steps := ha s
  generalize (a.on s).2 = s' at steps
  induction steps with
  | refl => rfl
  | tail _ step ih => exact (same _ _ step).trans ih

/-! ## References without a state -/

/-- An attempt agrees with a reference that has no state: it fails with the fault
    of the reference, or else its result and the state that it leaves are
    related to the result of the reference. -/
def Agrees (a : Attempt σ α) (s : σ) (reference : Except Fault β) (post : β → α → σ → Prop) :
    Prop :=
  match reference with
  | .error f => (a.on s).1 = .error f
  | .ok y => ∃ x s', a.on s = (.ok x, s') ∧ post y x s'

namespace Agrees

variable {γ δ : Type} {a : Attempt σ α} {s : σ} {reference : Except Fault β}
  {post : β → α → σ → Prop}

theorem of_ok {s' : σ} {x : α} {y : β} (h : a.on s = (.ok x, s')) (hp : post y x s') :
    a.Agrees s (.ok y) post := ⟨x, s', h, hp⟩

/-- An attempt that leaves the state alone agrees with its outcome. -/
theorem of_idle {x : Except Fault α} (h : a.on s = (x, s)) :
    a.Agrees s x fun y x s' => y = x ∧ s = s' := by
  cases x with
  | error f => exact congrArg Prod.fst h
  | ok y => exact ⟨y, s, h, rfl, rfl⟩

/-- What a result of the reference implies may be asked for as well. -/
theorem mono {post' : β → α → σ → Prop} (h : a.Agrees s reference post)
    (next : ∀ y x s', reference = .ok y → post y x s' → post' y x s') :
    a.Agrees s reference post' := by
  cases reference with
  | error f => exact h
  | ok y =>
    obtain ⟨x, s', ok, hp⟩ := h
    exact ⟨x, s', ok, next y x s' rfl hp⟩

/-- Sequences agree step by step. -/
theorem bind {f : α → Attempt σ γ} {g : β → Except Fault δ} {post' : δ → γ → σ → Prop}
    (h : a.Agrees s reference post)
    (next : ∀ y x s', a.on s = (.ok x, s') → post y x s' → (f x).Agrees s' (g y) post') :
    (a >>= f).Agrees s (reference >>= g) post' := by
  cases reference with
  | error e => exact bind_fails h f
  | ok y =>
    obtain ⟨x, s', ok, hp⟩ := h
    have agrees := next y x s' ok hp
    unfold Agrees
    rw [bind_of_ok ok]
    exact agrees

/-- A last step, without effects, that the reference does not have. -/
theorem then_pure {f : α → γ} {post' : β → γ → σ → Prop} (h : a.Agrees s reference post)
    (next : ∀ y x s', post y x s' → post' y (f x) s') :
    (a >>= fun x => Pure.pure (f x)).Agrees s reference post' := by
  cases reference with
  | error e => exact bind_fails h _
  | ok y =>
    obtain ⟨x, s', ok, hp⟩ := h
    exact ⟨f x, s', bind_of_ok ok _, next y x s' hp⟩

/-- A step that the reference does not have. -/
theorem after {f : α → Attempt σ γ} {x : α} {s' : σ} {post : β → γ → σ → Prop}
    (h : a.on s = (.ok x, s')) (next : (f x).Agrees s' reference post) :
    (a >>= f).Agrees s reference post := by
  unfold Agrees
  rw [bind_of_ok h]
  exact next

end Agrees

end Cascade.Attempt
