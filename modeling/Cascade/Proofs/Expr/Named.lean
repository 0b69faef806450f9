-- SUMMARY: Expressions that refer to names only: those that are read from texts do, and their values are computed.
import Cascade.Expr.Parse
import Cascade.Expr.Value
import Cascade.Proofs.Fact.Computed
import Cascade.Proofs.Outcome

/-! # Expressions over names

A key that is the name of a fact can always be looked up; asking for another
datum may fail for reasons that have nothing to do with the facts. An expression
that is read from a text refers to names only, and so its value is computed. -/

namespace Cascade

def Key.isName : Key → Bool
  | .name _ => true
  | .other _ => false

namespace Expr

/-- Every key that an expression refers to is a name. -/
def IsNamed (e : Expr) : Prop := ∀ k ∈ e.keys, k.isName

theorem named_literal (f : Fact) : (literal f).IsNamed := nofun

theorem named_fact (name : String) : (fact name).IsNamed := by
  intro k hk
  cases List.mem_singleton.mp hk
  rfl

theorem named_unary {op : UnaryOp} {e : Expr} : (unary op e).IsNamed ↔ e.IsNamed := .rfl

theorem named_binary {op : BinaryOp} {l r : Expr} :
    (binary op l r).IsNamed ↔ l.IsNamed ∧ r.IsNamed := List.forall_mem_append

/-! ## Reading -/

namespace Reader

/-- What a reader reads is over names. -/
def Names (reader : Reader Expr) : Prop := ∀ ts, Yields (reader ts) (·.1.IsNamed)

variable {operand inner : Reader Expr} {op? : Token → Option BinaryOp}

theorem names_chainAfter (h : Names operand) (fuel : Nat) {left : Expr} (hl : left.IsNamed) :
    Names (chainAfter op? operand fuel left) := by
  induction fuel generalizing left with
  | zero => exact fun _ => .ok hl
  | succ fuel ih =>
    intro ts
    cases ts with
    | nil => exact .ok hl
    | cons t ts =>
      unfold chainAfter
      cases op? t with
      | none => exact .ok hl
      | some op => exact (h ts).bind fun p hp => ih (named_binary.mpr ⟨hl, hp⟩) p.2

theorem names_chain (h : Names operand) : Names (chain op? operand) :=
  fun ts => (h ts).bind fun p hp => names_chainAfter h _ hp p.2

theorem names_leading {isOp : Token → Bool} {op : UnaryOp} (h : Names operand) :
    Names (leading isOp op operand) := by
  intro ts
  induction ts with
  | nil => exact h []
  | cons t ts ih =>
    unfold leading
    split
    · exact ih.bind fun p hp => .ok (named_unary.mpr hp)
    · exact h (t :: ts)

theorem names_compared (h : Names operand) : Names (compared operand) := by
  refine fun ts => (h ts).bind fun (left, rest) hl => ?_
  dsimp only
  split
  · exact .ok hl
  · split
    · exact .ok hl
    · refine (h _).bind fun (right, rest') hr => ?_
      dsimp only
      split
      · exact .error _
      · exact .ok (named_binary.mpr ⟨hl, hr⟩)

theorem names_listAfter (opening : Nat) : Names (listAfter opening) := by
  intro ts
  unfold listAfter
  dsimp only
  split
  on_goal 1 => split
  -- whatever the items are, a list that is read is a literal
  all_goals
    refine Yields.seq fun p => ?_
    split
    · exact .ok (named_literal _)
    · exact .error _

theorem names_primary (h : Names inner) : Names (primary inner) := by
  intro ts
  unfold primary
  split
  · exact .error _
  · split
    · exact .ok (named_literal _)
    · exact .ok (named_literal _)
    · exact Yields.seq fun _ => .ok (named_literal _)
    · exact .ok (named_fact _)
    · exact .ok (named_fact _)
    · split
      · exact .ok (named_literal _)
      · split
        · exact .ok (named_literal _)
        · exact .error _
    · split
      · exact (h _).bind fun p hp => Yields.seq fun _ => .ok hp
      · split
        · exact names_listAfter _ _
        · exact .error _
    · exact .error _

theorem names_expression (depth : Nat) : Names (expression depth) := by
  induction depth with
  | zero => exact fun _ => .error _
  | succ depth ih =>
    have product : Names (product (expression depth)) :=
      names_chain (names_leading (names_primary ih))
    have negation : Names (negation (expression depth)) :=
      names_leading (names_compared (names_chain product))
    exact names_chain (names_chain negation)

end Reader

/-- An expression that is read from a text is over names. -/
theorem named_parse (source : String) : Yields (parse source) IsNamed := by
  refine Yields.seq fun ts => Yields.mapError ?_ _
  unfold ofTokens
  have whole : Yields (Reader.expression (ts.body.length + 1) ts.body) (·.1.IsNamed) :=
    Reader.names_expression _ _
  split
  · exact .error _
  · refine whole.bind fun (e, rest) hp => ?_
    dsimp only
    split
    · exact .ok hp
    · exact .error _

/-! ## Values -/

end Expr

/-- A reading that answers for every name. -/
def Reading.Answers (read : Reading) : Prop := ∀ k : Key, k.isName → ∃ content, read k = .ok content

namespace Expr

variable {read : Reading}

theorem computed_requireBool (context : String) (f : Fact) : Computed (f.requireBool context) := by
  unfold Fact.requireBool
  split
  · exact .ok _
  · exact .error rfl

theorem computed_applyUnary (op : UnaryOp) (f : Fact) : Computed (applyUnary op f) := by
  cases op with
  | neg => exact Fact.computed_negate f
  | not => exact (computed_requireBool _ f).seq fun _ => .ok _

/-- The value of an expression over names is computed. -/
theorem computed_eval (answers : read.Answers) {e : Expr} (h : e.IsNamed) :
    Computed (e.eval read) := by
  induction e with
  | literal f => exact .ok f
  | fact key =>
    obtain ⟨content, hc⟩ := answers key (h key (List.mem_singleton_self key))
    unfold eval fetch
    rw [hc]
    cases content with
    | none => exact .error rfl
    | some f => exact .ok f
  | unary op e ih => exact (ih (named_unary.mp h)).seq fun f => computed_applyUnary op f
  | binary op l r ihl ihr =>
    obtain ⟨hl, hr⟩ := named_binary.mp h
    have left := ihl hl
    have right := ihr hr
    cases op with
    | arithmetic op =>
      exact left.seq fun a => right.seq fun b => Fact.computed_arithmetic op a b
    | comparison op =>
      exact left.seq fun a => right.seq fun b => (Fact.computed_compare op a b).seq fun _ => .ok _
    | connective op =>
      -- the right operand may be left alone
      cases op with
      | and =>
        refine left.seq fun a => (computed_requireBool _ a).seq fun decides => ?_
        split
        · exact right.seq fun b => (computed_requireBool _ b).seq fun _ => .ok _
        · exact .ok _
      | or =>
        refine left.seq fun a => (computed_requireBool _ a).seq fun decides => ?_
        split
        · exact .ok _
        · exact right.seq fun b => (computed_requireBool _ b).seq fun _ => .ok _

theorem computed_holds (answers : read.Answers) {e : Expr} (h : e.IsNamed) :
    Computed (e.holds read) :=
  (computed_eval answers h).seq fun f => computed_requireBool _ f

end Expr

end Cascade
