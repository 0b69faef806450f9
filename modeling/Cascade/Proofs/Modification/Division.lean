-- SUMMARY: Operators on integers wherever a program can apply them: expressions, the store's own operations and the modifications of rules come to the same quotients and remainders.
import Cascade.Proofs.Expr.Kinds
import Cascade.Proofs.Fact.Division
import Cascade.Proofs.Modification.Course
import Cascade.Proofs.Store.Failing

/-! # Division in expressions, stores and rules

An operator can be applied in three places: between two expressions, by a store to
one of its facts, and by a modification of a rule. The store works out the result
before it writes it, and a modification asks in between whether the result may take
the place of the fact, and whether it is there already. What an operator makes of two
integers may always take the place of an integer. So all three come to the same
result or the same fault, and the map that is written to has the result. -/

namespace Cascade

open Attempt

/-! ## Expressions -/

namespace Expr

variable {read : Reading} {e f : Expr} {x y : Fact}

/-- An operator between two expressions that have values is the operator on these. -/
theorem eval_arithmetic (op : Arithmetic) (he : e.eval read = .ok x) (hf : f.eval read = .ok y) :
    (binary (.arithmetic op) e f).eval read = Fact.arithmetic op x y := by
  rw [eval, he, hf]
  rfl

/-- A dividend put together again from quotient and remainder, `(e / f) * f + e % f`. -/
def recomposed (e f : Expr) : Expr :=
  .binary (.arithmetic .add)
    (.binary (.arithmetic .mul) (.binary (.arithmetic .div) e f) f)
    (.binary (.arithmetic .mod) e f)

/-- The dividend comes out again, unless the divisor is zero. -/
theorem eval_recomposed {a b : ℤ} (he : e.eval read = .ok (.int a))
    (hf : f.eval read = .ok (.int b)) :
    (recomposed e f).eval read = if b = 0 then .error .divisionByZero else .ok (.int a) := by
  have quotient := eval_arithmetic .div he hf
  have remainder := eval_arithmetic .mod he hf
  rw [Fact.arithmetic_div] at quotient
  rw [Fact.arithmetic_mod] at remainder
  split
  case isTrue zero =>
    -- the quotient comes first, so the remainder's own fault never shows
    rw [if_pos zero] at quotient
    rw [recomposed, eval, eval, quotient]
    rfl
  case isFalse nonzero =>
    rw [if_neg nonzero] at quotient remainder
    have product : (binary (.arithmetic .mul) (binary (.arithmetic .div) e f) f).eval read
        = .ok (.int (truncatedQuotient a b * b)) := eval_arithmetic .mul quotient hf
    have whole : (recomposed e f).eval read
        = .ok (.int (truncatedQuotient a b * b + truncatedRemainder a b)) :=
      eval_arithmetic .add product remainder
    have division := (truncatedDivision_of_ne_zero a nonzero).division
    rw [whole, mul_comm, ← division]

end Expr

/-! ## Integers -/

namespace Fact

/-- What an operator makes of two integers is an integer. -/
theorem arithmetic_int {op : Arithmetic} {a b : ℤ} {f : Fact}
    (h : arithmetic op (.int a) (.int b) = .ok f) : ∃ n, f = .int n := by
  have kind : f.kind = .int := kind_arithmetic h
  cases f with
  | int n => exact ⟨n, rfl⟩
  | _ => cases kind

/-- What an operator makes of two integers may take the place of an integer. -/
theorem assignable_arithmetic (op : Arithmetic) (key : Key) (a b : ℤ) :
    (do assignable key (some (.int a)) (← arithmetic op (.int a) (.int b)))
      = arithmetic op (.int a) (.int b) := by
  cases computed : arithmetic op (.int a) (.int b) with
  | error e => rfl
  | ok f =>
    obtain ⟨n, rfl⟩ := arithmetic_int computed
    rfl

/-- An integer stands only where it is stored. -/
theorem Stands.eq_int {n : ℤ} {stored : Option Fact} (h : Stands (.int n) stored) :
    stored = some (.int n) := by
  obtain found | ⟨unborn, -⟩ := h
  · cases stored with
    | none => cases found
    | some g => cases g <;> simp_all [isSame?, same]
  · cases unborn

end Fact

/-! ## Stores -/

namespace Layered

variable {db : Layered} {key : Key} {s : String} {name : LayerName}

/-- An attempt puts what comes of a computation into a map: it fails with the fault of
    the computation, or else the map has the result under the key. -/
def Puts {α : Type} (a : Attempt Layered α) (db : Layered) (name : LayerName) (key : Key)
    (outcome : Except Fault Fact) : Prop :=
  a.Agrees db outcome fun f _ db' => (db'.factsAt (name.slot db)).at? key = some f

/-- What is computed is written as it is. -/
theorem put_agrees (filled : s ≠ "") (compute : Except Fault Fact) :
    (put (.name s) (.named name) compute).Agrees db compute fun f _ db' =>
      db' = db.write (name.slot db) (.name s) (some f) := by
  refine .after (target_on name db) ?_
  cases compute with
  | error e => exact rfl
  | ok f => exact .of_ok ((place (name.slot db)).set_named filled f db) rfl

/-- The store's own operation works out the operator on what the key reads as. -/
theorem combine_agrees {f g : Fact} {value : Datum} (op : Arithmetic) (filled : s ≠ "")
    (seen : db.visible? (.name s) = some f) (given : value.toFact = .ok g) :
    (combine op (.name s) value (.named name)).Agrees db (Fact.arithmetic op f g) fun h _ db' =>
      db' = db.write (name.slot db) (.name s) (some h) := by
  have reads : (reading (·.read (.name s))).on db = (.ok (some f), db) :=
    reading_of (congrArg Except.ok seen)
  have required : (require (.name s)).on db = (.ok f, db) := by
    rw [require, bind_of_ok reads]
    rfl
  have computed : (do Fact.arithmetic op f (← value.toFact)) = Fact.arithmetic op f g := by
    rw [given]
    rfl
  refine .after required ?_
  rw [computed]
  exact put_agrees filled _

/-- So on integers it puts the result of the operator into the map. -/
theorem combine_puts {a b : ℤ} {value : Datum} (op : Arithmetic) (named : db.WellNamed)
    (seen : db.visible? key = some (.int a)) (given : value.toFact = .ok (.int b)) :
    Puts (combine op key value (.named name)) db name key
      (Fact.arithmetic op (.int a) (.int b)) := by
  obtain ⟨s, rfl, filled⟩ := named.filled seen
  refine (combine_agrees op filled seen given).mono fun f _ db' computed written => ?_
  obtain ⟨n, rfl⟩ := Fact.arithmetic_int computed
  have born : Fact.int n ≠ .indeterminate none := nofun
  rw [written, at?_write, db.births.settle_of_born born]

end Layered

/-! ## Modifications -/

namespace Modification

open Layered

variable {db : Layered} {s : String} {name : LayerName}

/-- What may take the place of a fact stands in the map afterwards, whether it was
    written or found there. -/
theorem overwrite_agrees (db : Layered) (name : LayerName) (filled : s ≠ "")
    (visible : Option Fact) (new : Except Fault Fact) :
    (overwrite (.name s) (.named name) visible new).Agrees db
      (do Fact.assignable (.name s) visible (← new))
      fun f _ db' => f.Stands ((db'.factsAt (name.slot db)).at? (.name s)) := by
  unfold overwrite
  cases (do Fact.assignable (.name s) visible (← new)) with
  | error e => exact rfl
  | ok f =>
    refine .after (on_ofExcept (.ok f) db) (.after (target_on name db) ?_)
    have answers := (place (name.slot db)).setIfChanged_named filled f db
    split at answers
    · rename_i found
      exact .of_ok answers (.inl found)
    · have written := at?_write db name s (some f)
      exact .of_ok answers (written ▸ Fact.stands_settle db.births s f)

/-- A modification that combines a fact with an operand overwrites it with the result
    of the operator. -/
theorem apply_combine {m : Modification} {op : Compound} {operand : ValueSpec} {look : Lookup}
    {default : LayerRef} {f g : Fact} (combines : m.effect = .combine op operand)
    (reads : db.read m.key = .ok (some f)) (resolved : operand.value (look db) = .ok g) :
    (m.apply look default).on db
      = (overwrite m.key (m.target default) (some f) (Fact.arithmetic op.arithmetic f g)).on db := by
  have looks : (current m.key).on db = (.ok (some f), db) := reading_of reads
  have resolves : (operand.resolve look).on db = (.ok g, db) := reading_of resolved
  rw [apply, combines]
  dsimp only
  rw [bind_of_ok looks]
  dsimp only
  rw [bind_of_ok resolves]

/-- So on integers it puts the result of the operator into the map. -/
theorem apply_combine_puts {m : Modification} {op : Compound} {operand : ValueSpec}
    {look : Lookup} {default : LayerRef} {a b : ℤ} (named : db.WellNamed)
    (combines : m.effect = .combine op operand) (goes : m.target default = .named name)
    (seen : db.visible? m.key = some (.int a))
    (resolved : operand.value (look db) = .ok (.int b)) :
    Puts (m.apply look default) db name m.key
      (Fact.arithmetic op.arithmetic (.int a) (.int b)) := by
  obtain ⟨s, isName, filled⟩ := named.filled seen
  have reads : db.read m.key = .ok (some (.int a)) := by
    rw [isName] at seen ⊢
    exact congrArg Except.ok seen
  have overwrites := overwrite_agrees db name filled (some (.int a))
    (Fact.arithmetic op.arithmetic (.int a) (.int b))
  rw [Fact.assignable_arithmetic] at overwrites
  have puts : Puts (overwrite (.name s) (.named name) (some (.int a))
      (Fact.arithmetic op.arithmetic (.int a) (.int b))) db name (.name s)
      (Fact.arithmetic op.arithmetic (.int a) (.int b)) := by
    refine overwrites.mono fun f _ db' computed stands => ?_
    obtain ⟨n, rfl⟩ := Fact.arithmetic_int computed
    exact stands.eq_int
  unfold Puts Agrees
  rw [apply_combine combines reads resolved, goes, isName]
  exact puts

end Modification

/-! ## Everywhere -/

/-- Division and remainder of integers, wherever they are applied. The quotient is the
    exact one rounded toward zero and the remainder belongs to it, whatever the signs
    are: with the dividend both change theirs, with the divisor only the quotient does.
    So the value of an expression comes out again when it is put together from quotient
    and remainder by another one, unless that is zero, which is the fault then. And a
    store's own operations and the modifications of rules put into the map that they
    write to what the operators make of expressions with the same values, or fail with
    the same fault. That the store's facts have names is no condition on what a host
    can come to, by `Layered.Session.wellNamed_carried`. -/
theorem divisions_agree :
    (∀ a b : ℤ, b ≠ 0 →
      TruncatedDivision a b (truncatedQuotient a b) (truncatedRemainder a b) ∧
      Fact.arithmeticNamed "mod" (.int a) (.int b) = .ok (.int (truncatedRemainder a b)) ∧
      truncatedQuotient (-a) b = -truncatedQuotient a b ∧
      truncatedRemainder (-a) b = -truncatedRemainder a b ∧
      truncatedQuotient a (-b) = -truncatedQuotient a b ∧
      truncatedRemainder a (-b) = truncatedRemainder a b) ∧
    ∀ (read : Reading) (e f : Expr) (a b : ℤ), e.eval read = .ok (.int a) →
      f.eval read = .ok (.int b) →
      (Expr.binary (.arithmetic .div) e f).eval read
        = (if b = 0 then .error .divisionByZero else .ok (.int (truncatedQuotient a b))) ∧
      (Expr.binary (.arithmetic .mod) e f).eval read
        = (if b = 0 then .error .moduloByZero else .ok (.int (truncatedRemainder a b))) ∧
      (e.recomposed f).eval read = (if b = 0 then .error .divisionByZero else .ok (.int a)) ∧
      ∀ (db : Layered) (key : Key) (name : LayerName), db.WellNamed →
        db.visible? key = some (.int a) →
        (∀ (op : Arithmetic) (value : Datum), value.toFact = .ok (.int b) →
          Layered.Puts (Layered.combine op key value (.named name)) db name key
            ((Expr.binary (.arithmetic op) e f).eval read)) ∧
        ∀ (m : Modification) (op : Compound) (operand : ValueSpec) (look : Lookup)
          (default : LayerRef), m.key = key → m.effect = .combine op operand →
          m.target default = .named name → operand.value (look db) = .ok (.int b) →
          Layered.Puts (m.apply look default) db name key
            ((Expr.binary (.arithmetic op.arithmetic) e f).eval read) := by
  constructor
  · intro a b nonzero
    have remains : Fact.arithmeticNamed "mod" (.int a) (.int b)
        = .ok (.int (truncatedRemainder a b)) :=
      (Fact.arithmeticNamed_name .mod _ _).trans
        ((Fact.arithmetic_mod a b).trans (if_neg nonzero))
    exact ⟨truncatedDivision_of_ne_zero a nonzero, remains, truncatedQuotient_neg_left a b,
      truncatedRemainder_neg_left a b, truncatedQuotient_neg_right a b,
      truncatedRemainder_neg_right a b⟩
  · intro read e f a b he hf
    refine ⟨Expr.eval_arithmetic .div he hf, Expr.eval_arithmetic .mod he hf,
      Expr.eval_recomposed he hf, fun db key name named seen => ⟨fun op value given => ?_, ?_⟩⟩
    · rw [Expr.eval_arithmetic op he hf]
      exact Layered.combine_puts op named seen given
    · rintro m op operand look default rfl combines goes resolved
      rw [Expr.eval_arithmetic op.arithmetic he hf]
      exact Modification.apply_combine_puts named combines goes seen resolved

/-! ### A debt -/

namespace Debt

def debt : Key := .name "debt"

def shop : Layered :=
  ((Layered.Session.ofFacts (.ofList [("debt", .int (-7))])).carried
    [.call ⟨"push_scope", [.str "shop"], []⟩]).store

/-- Leaves one of two partners with half of the debt. -/
def share : Modification := ⟨debt, some (.named .global), .combine .div (.constant (.int 2))⟩

/-- Half a debt of seven is a debt of three and leaves one of one, for an expression, for
    the store and for a rule. -/
theorem debt_halved :
    TruncatedDivision (-7) 2 (-3) (-1) ∧
    ((Expr.fact debt).recomposed (.literal (.int 2))).eval shop.read = .ok (.int (-7)) ∧
    ((Expr.fact debt).recomposed (.literal (.int 0))).eval shop.read = .error .divisionByZero ∧
    (∃ db', (Layered.combine .div debt (.document (.int 2)) (.named .inner)).on shop
        = (.ok ⟨⟩, db') ∧ (db'.factsAt shop.innerSlot).at? debt = some (.int (-3))) ∧
    (∃ db', (Layered.combine .mod debt (.document (.int 2)) (.named .inner)).on shop
        = (.ok ⟨⟩, db') ∧ (db'.factsAt shop.innerSlot).at? debt = some (.int (-1))) ∧
    ∃ changed db', (share.apply Layered.read (.named .inner)).on shop = (.ok changed, db') ∧
      (db'.factsAt .global).at? debt = some (.int (-3)) := by
  obtain ⟨numbers, agree⟩ := divisions_agree
  have owed : shop.visible? debt = some (.int (-7)) := by decide +kernel
  have named : shop.WellNamed :=
    Layered.Session.wellNamed_carried _ (.ofFacts (by decide +kernel))
  have read : (Expr.fact debt).eval shop.read = .ok (.int (-7)) := by
    have reads : shop.read debt = .ok (some (.int (-7))) := congrArg Except.ok owed
    rw [Expr.eval, Expr.fetch, reads]
    rfl
  obtain ⟨quotient, remainder, whole, applied⟩ := agree shop.read _ (.literal (.int 2)) _ 2 read rfl
  obtain ⟨-, -, fails, -⟩ := agree shop.read _ (.literal (.int 0)) _ 0 read rfl
  obtain ⟨stores, -⟩ := applied shop debt .inner named owed
  obtain ⟨-, rules⟩ := applied shop debt .global named owed
  have divided := stores .div (.document (.int 2)) rfl
  have left := stores .mod (.document (.int 2)) rfl
  have shared := rules share .div _ Layered.read (.named .inner) rfl rfl rfl rfl
  rw [quotient] at divided
  rw [remainder] at left
  have arithmetic : Compound.div.arithmetic = .div := rfl
  rw [arithmetic, quotient] at shared
  obtain ⟨⟨⟩, db₁, done₁, held₁⟩ := divided
  obtain ⟨⟨⟩, db₂, done₂, held₂⟩ := left
  exact ⟨(numbers (-7) 2 (by decide)).1, whole, fails, ⟨db₁, done₁, held₁⟩, ⟨db₂, done₂, held₂⟩,
    shared⟩

end Debt

end Cascade
