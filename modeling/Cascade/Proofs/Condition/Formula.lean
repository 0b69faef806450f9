-- SUMMARY: Conditions as expressions: a condition put together from expressions stands for one expression, and checking the condition comes to what evaluating the expression comes to.
import Mathlib.Data.List.Forall2
import Cascade.Condition.Basic

/-! # Conditions as expressions

A condition that tests no single facts says what one expression could say: its
groups are joined by a connective, from left to right. The condition goes through
the parts of a group one after the other, the expression goes down its left
operands to the first part and comes back. Both stop at the same part, and both
make the same of it. Only a fact that should have been a truth value is complained
of in other words, by the operator that asked for it. -/

namespace Cascade

/-! ## Outcomes of conditions -/

/-- The same fault, or the same complaint that a fact is no truth value from
    whatever asked for one. -/
inductive Fault.Akin : Fault → Fault → Prop
  | same (f : Fault) : Akin f f
  | notBool (context context' : String) (kind : Kind) :
    Akin (.mismatch (.notBool context kind)) (.mismatch (.notBool context' kind))

/-- Whether a condition holds, or why that cannot be told. -/
abbrev Verdict := Except Fault Bool

/-- The same truth value, or akin faults. -/
inductive Verdict.Agrees : Verdict → Verdict → Prop
  | value (b : Bool) : Agrees (.ok b) (.ok b)
  | fault {f g : Fault} (akin : f.Akin g) : Agrees (.error f) (.error g)

namespace Verdict.Agrees

variable {x y z : Verdict}

theorem refl (x : Verdict) : Agrees x x := by
  cases x with
  | ok b => exact .value b
  | error f => exact .fault (.same f)

theorem trans (h : Agrees x y) (h' : Agrees y z) : Agrees x z := by
  cases h with
  | value b => exact h'
  | fault akin =>
    cases h' with
    | fault akin' =>
      cases akin with
      | same f => exact .fault akin'
      | notBool context context' kind =>
        cases akin' with
        | same f => exact .fault (.notBool ..)
        | notBool _ context'' kind => exact .fault (.notBool ..)

theorem symm (h : Agrees x y) : Agrees y x := by
  cases h with
  | value b => exact .value b
  | fault akin =>
    cases akin with
    | same => exact .fault (.same _)
    | notBool context context' kind => exact .fault (.notBool context' context kind)

/-- What follows on a truth value agrees if it does after either. -/
theorem bind {f g : Bool → Verdict} (h : Agrees x y) (rest : ∀ b, Agrees (f b) (g b)) :
    Agrees (x >>= f) (y >>= g) := by
  cases h with
  | value b => exact rest b
  | fault akin => exact .fault akin

end Verdict.Agrees

/-! ## Connectives along a list -/

namespace Connective

/-- The truth value that settles a connective, whatever comes after it. -/
def settled : Connective → Bool
  | and => false
  | or => true

/-- A connective along a list of verdicts, up to the first that settles it or is a
    fault. -/
def gather (op : Connective) : List Verdict → Verdict
  | [] => .ok !op.settled
  | x :: xs => do if (← x) = op.settled then return op.settled else op.gather xs

variable {op : Connective}

theorem gather_agrees {xs ys : List Verdict} (h : List.Forall₂ Verdict.Agrees xs ys) :
    Verdict.Agrees (op.gather xs) (op.gather ys) := by
  induction h with
  | nil => exact .refl _
  | cons first _ ih =>
    refine first.bind fun b => ?_
    split
    · exact .refl _
    · exact ih

/-- A connective of one verdict comes to that verdict. -/
theorem gather_single (op : Connective) (x : Verdict) : op.gather [x] = x := by
  cases x with
  | error f => rfl
  | ok b => cases op <;> cases b <;> rfl

/-- The first verdicts may be gathered into one before the others. -/
theorem gather_append (op : Connective) (xs ys : List Verdict) :
    op.gather (op.gather xs :: ys) = op.gather (xs ++ ys) := by
  induction xs with
  | nil => cases op <;> rfl
  | cons x xs ih =>
    cases x with
    | error f => rfl
    | ok b =>
      by_cases settles : b = op.settled
      · simp [gather, settles, bind, Except.bind, pure, Except.pure]
      · simpa [gather, settles, bind, Except.bind] using ih

end Connective

/-! ## Expressions -/

namespace Expr

/-- Expressions joined by a connective, from left to right; if there are none, the
    truth value that does not settle it. -/
def joined (op : Connective) : List Expr → Expr
  | [] => .literal (.bool !op.settled)
  | e :: es => es.foldl (.binary (.connective op)) e

variable {read : Reading}

/-- A fact as a truth value, asked for by an operator or by a condition. -/
theorem requireBool_agrees (context : String) (e : Expr) :
    Verdict.Agrees (e.eval read >>= (·.requireBool context)) (e.holds read) := by
  unfold holds
  cases e.eval read with
  | error f => exact .refl _
  | ok v =>
    cases v with
    | bool b => exact .value b
    | _ => exact .fault (.notBool ..)

/-- A connective asks its operands for truth values, the second one only if the
    first one does not settle it. -/
theorem eval_connective (op : Connective) (l r : Expr) :
    (binary (.connective op) l r).eval read
      = .bool <$> op.gather [l.eval read >>= (·.requireBool op.name),
          r.eval read >>= (·.requireBool op.name)] := by
  rw [Connective.gather, Connective.gather_single, map_bind, bind_assoc]
  cases op with
  | and =>
    refine bind_congr fun v => bind_congr fun b => ?_
    cases b with
    | false => rfl
    | true => simp [Connective.name, Connective.settled]
  | or =>
    refine bind_congr fun v => bind_congr fun b => ?_
    cases b with
    | true => rfl
    | false => simp [Connective.name, Connective.settled]

/-- What an operator made a truth value is one for a condition. -/
theorem holds_of_eval {e : Expr} {x : Verdict} (h : e.eval read = .bool <$> x) :
    e.holds read = x := by
  rw [holds, h]
  cases x with
  | error f => rfl
  | ok b => rfl

theorem holds_connective (op : Connective) (l r : Expr) :
    Verdict.Agrees ((binary (.connective op) l r).holds read)
      (op.gather [l.holds read, r.holds read]) := by
  rw [holds_of_eval (eval_connective op l r)]
  exact Connective.gather_agrees
    (.cons (requireBool_agrees op.name l) (.cons (requireBool_agrees op.name r) .nil))

theorem holds_not (e : Expr) :
    Verdict.Agrees ((unary .not e).holds read) (do return !(← e.holds read)) := by
  have evaluated : (unary .not e).eval read
      = .bool <$> (do return !(← e.eval read >>= (·.requireBool "not"))) := by
    simp [eval, applyUnary]
  rw [holds_of_eval evaluated]
  exact (requireBool_agrees "not" e).bind fun b => .refl _

/-- Going down the left operands comes to going along the list. -/
theorem holds_foldl (op : Connective) (first : Expr) (es : List Expr) :
    Verdict.Agrees ((es.foldl (.binary (.connective op)) first).holds read)
      (op.gather (first.holds read :: es.map (·.holds read))) := by
  -- on the operands, the first of which takes those before it along
  induction es generalizing first with
  | nil =>
    rw [List.map_nil, Connective.gather_single]
    exact .refl _
  | cons e rest ih =>
    let others := rest.map (·.holds read)
    have same : List.Forall₂ Verdict.Agrees others others :=
      List.forall₂_same.mpr fun x _ => .refl x
    have pair : Verdict.Agrees (op.gather ((binary (.connective op) first e).holds read :: others))
        (op.gather (first.holds read :: e.holds read :: others)) := by
      have whole := Connective.gather_append op [first.holds read, e.holds read] others
      rw [List.cons_append, List.singleton_append] at whole
      rw [← whole]
      exact Connective.gather_agrees (.cons (holds_connective op first e) same)
    exact (ih _).trans pair

theorem holds_joined (op : Connective) (es : List Expr) :
    Verdict.Agrees ((joined op es).holds read) (op.gather (es.map (·.holds read))) := by
  cases es with
  | nil => exact .refl _
  | cons e rest => exact holds_foldl op e rest

end Expr

/-! ## Conditions -/

namespace Condition

/-- A condition without tests of single facts. -/
inductive IsFormula : Condition → Prop
  | always : IsFormula .always
  | expr (e : Expr) (source : Option String) : IsFormula (.expr e source)
  | all {parts : List Condition} (each : ∀ part ∈ parts, IsFormula part) : IsFormula (.all parts)
  | any {parts : List Condition} (each : ∀ part ∈ parts, IsFormula part) : IsFormula (.any parts)
  | not {part : Condition} (inner : IsFormula part) : IsFormula (.not part)

mutual
/-- The expression that a condition stands for, if it tests no single facts. -/
def asExpr? : Condition → Option Expr
  | always => some (.literal (.bool true))
  | expr e _ => some e
  | all parts => do return .joined .and (← asExprs? parts)
  | any parts => do return .joined .or (← asExprs? parts)
  | not part => do return .unary .not (← part.asExpr?)
  | compares .. | present _ | absent _ | flag .. => none

def asExprs? : List Condition → Option (List Expr)
  | [] => some []
  | c :: cs => do return (← c.asExpr?) :: (← asExprs? cs)
end

variable {read : Reading}

theorem checkAll_eq (cs : List Condition) :
    checkAll read cs = Connective.and.gather (cs.map (check read)) := by
  induction cs with
  | nil => rfl
  | cons c rest ih =>
    rw [checkAll, List.map_cons, Connective.gather, ih]
    refine bind_congr fun b => ?_
    cases b <;> rfl

theorem checkAny_eq (cs : List Condition) :
    checkAny read cs = Connective.or.gather (cs.map (check read)) := by
  induction cs with
  | nil => rfl
  | cons c rest ih =>
    rw [checkAny, List.map_cons, Connective.gather, ih]
    refine bind_congr fun b => ?_
    cases b <;> rfl

/-- Conditions that each stand for an expression do so as a list. -/
theorem exists_asExprs? {cs : List Condition}
    (each : ∀ c ∈ cs, ∃ e, c.asExpr? = some e ∧
      ∀ read, Verdict.Agrees (c.check read) (e.holds read)) :
    ∃ es, asExprs? cs = some es ∧
      ∀ read, List.Forall₂ Verdict.Agrees (cs.map (check read)) (es.map (·.holds read)) := by
  induction cs with
  | nil => exact ⟨[], rfl, fun read => .nil⟩
  | cons c rest ih =>
    obtain ⟨first, others⟩ := List.forall_mem_cons.mp each
    obtain ⟨e, stands, agrees⟩ := first
    obtain ⟨es, stand, agree⟩ := ih others
    refine ⟨e :: es, ?_, fun read => .cons (agrees read) (agree read)⟩
    rw [asExprs?, stands, stand]
    rfl

/-- A condition that tests no single facts stands for an expression, and whatever
    the facts are read as, checking the one and evaluating the other gives the same
    truth value or fails for the same reason. -/
theorem check_agrees {c : Condition} (formula : c.IsFormula) :
    ∃ e, c.asExpr? = some e ∧ ∀ read, Verdict.Agrees (c.check read) (e.holds read) := by
  induction formula with
  | always => exact ⟨_, rfl, fun read => .refl _⟩
  | expr e source => exact ⟨e, rfl, fun read => .refl _⟩
  | all _ ih =>
    obtain ⟨es, stand, agree⟩ := exists_asExprs? ih
    refine ⟨.joined .and es, by rw [asExpr?, stand]; rfl, fun read => ?_⟩
    rw [check, checkAll_eq]
    exact (Connective.gather_agrees (agree read)).trans (Expr.holds_joined .and es).symm
  | any _ ih =>
    obtain ⟨es, stand, agree⟩ := exists_asExprs? ih
    refine ⟨.joined .or es, by rw [asExpr?, stand]; rfl, fun read => ?_⟩
    rw [check, checkAny_eq]
    exact (Connective.gather_agrees (agree read)).trans (Expr.holds_joined .or es).symm
  | not _ ih =>
    obtain ⟨e, stands, agrees⟩ := ih
    refine ⟨.unary .not e, by rw [asExpr?, stands]; rfl, fun read => ?_⟩
    rw [check]
    exact ((agrees read).bind fun b => .refl _).trans (Expr.holds_not e).symm

namespace Toll

/-- A gate opens to the rich, or to anyone while it is not guarded, and takes a purse
    along that should have been a truth value. -/
def gate : Condition :=
  .all
    [ .always,
      .any
        [ .expr (.binary (.comparison .gt) (.fact (.name "gold")) (.literal (.int 5))) none,
          .not (.expr (.fact (.name "guarded")) none) ],
      .expr (.fact (.name "purse")) none ]

/-- An evening with little gold, no guard and a full purse. -/
def evening : Reading
  | .name "gold" => .ok (some (.int 3))
  | .name "guarded" => .ok (some (.bool false))
  | .name "purse" => .ok (some (.int 12))
  | _ => .ok none

/-- The gate gets as far as the purse, and so does its expression. -/
theorem gate_agrees : gate.IsFormula ∧
    gate.check evening = .error (.mismatch (.notBool "condition" .int)) ∧
    ∃ e, gate.asExpr? = some e ∧ Verdict.Agrees (gate.check evening) (e.holds evening) := by
  have formula : gate.IsFormula := by
    refine .all (List.forall_mem_cons.mpr ⟨.always, List.forall_mem_cons.mpr ⟨.any ?_, ?_⟩⟩)
    · simpa using ⟨.expr .., .not (.expr ..)⟩
    · simpa using .expr ..
  obtain ⟨e, stands, agrees⟩ := check_agrees formula
  exact ⟨formula, rfl, e, stands, agrees evening⟩

end Toll

end Condition

end Cascade
