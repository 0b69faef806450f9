-- SUMMARY: The record of an expression gives the expression back.
import Cascade.Expr.Record
import Cascade.Proofs.Fact.Reading
import Cascade.Proofs.Outcome

/-! # Expressions and their records

Each kind of expression has a record of its own, and reading a record takes it
apart in the way in which it was put together. -/

namespace Cascade

namespace Document

/-- A field that is there is found. -/
theorem need_of_field? {fields : List (String × Document)} {key : String} {d : Document}
    (h : field? fields key = some d) : need fields key = .ok ⟨d, sizeOf_field? h⟩ := by
  unfold need
  split
  case h_1 d' h' =>
    have same : d' = d := Option.some.inj (h'.symm.trans h)
    subst same
    rfl
  case h_2 h' =>
    rw [h] at h'
    cases h'

end Document

@[simp]
theorem Key.toDocument_name (s : String) : (name s).toDocument = .str s := rfl

theorem UnaryOp.ofName?_name (op : UnaryOp) : ofName? op.name = some op := by cases op <;> rfl

theorem BinaryOp.ofName?_name (op : BinaryOp) : ofName? op.name = some op := by
  cases op with
  | arithmetic op => cases op <;> rfl
  | comparison op => cases op <;> rfl
  | connective op => cases op <;> rfl

namespace Expr

open Document

/-- An expression that a record can write: its constants can be written, and it
    refers to names that are not empty. -/
def IsWritable : Expr → Prop
  | literal f => f.IsWritable
  | fact (.name s) => s ≠ ""
  | fact (.other _) => False
  | unary _ e => e.IsWritable
  | binary _ l r => l.IsWritable ∧ r.IsWritable

theorem reference_name {s : String} (h : s ≠ "") : reference (.str s) = .ok (fact (.name s)) := by
  have truthy : (Document.str s).truthy = true := decide_eq_true h
  unfold reference
  rw [if_pos truthy]
  rfl

theorem unaryNamed_name (op : UnaryOp) (e : Expr) :
    unaryNamed (.str op.name) e = .ok (unary op e) := by
  have found : (Document.str op.name).text?.bind UnaryOp.ofName? = some op := op.ofName?_name
  simp only [unaryNamed, found]

theorem binaryNamed_name (op : BinaryOp) (l r : Expr) :
    binaryNamed (.str op.name) l r = .ok (binary op l r) := by
  have found : (Document.str op.name).text?.bind BinaryOp.ofName? = some op := op.ofName?_name
  simp only [binaryNamed, found]

/-- A record gives back the expression that it writes. -/
theorem ofDocument_toDocument {e : Expr} (h : e.IsWritable) : ofDocument e.toDocument = .ok e := by
  induction e with
  | literal f =>
    have value : field? [("kind", .str "literal"), ("value", f.toDocument)] "value"
        = some f.toDocument := rfl
    have read := Fact.ofTagged_toDocument h
    unfold toDocument ofDocument
    simp [field?, need_of_field? value, read, bind, Except.bind, pure, Except.pure]
  | fact key =>
    cases key with
    | other d => exact h.elim
    | name s =>
      have key : field? [("kind", .str "fact"), ("key", .str s)] "key" = some (.str s) := rfl
      unfold toDocument ofDocument
      simp [field?, need_of_field? key, reference_name h, bind, Except.bind]
  | unary op e ih =>
    have name : field? [("kind", .str "unary"), ("op", .str op.name), ("operand", e.toDocument)]
        "op" = some (.str op.name) := rfl
    have operand : field? [("kind", .str "unary"), ("op", .str op.name), ("operand", e.toDocument)]
        "operand" = some e.toDocument := rfl
    unfold toDocument ofDocument
    simp [field?, need_of_field? name, need_of_field? operand, ih h, unaryNamed_name, bind,
      Except.bind]
  | binary op l r ihl ihr =>
    have name : field? [("kind", .str "binary"), ("op", .str op.name), ("left", l.toDocument),
        ("right", r.toDocument)] "op" = some (.str op.name) := rfl
    have left : field? [("kind", .str "binary"), ("op", .str op.name), ("left", l.toDocument),
        ("right", r.toDocument)] "left" = some l.toDocument := rfl
    have right : field? [("kind", .str "binary"), ("op", .str op.name), ("left", l.toDocument),
        ("right", r.toDocument)] "right" = some r.toDocument := rfl
    unfold toDocument ofDocument
    simp [field?, need_of_field? name, need_of_field? left, need_of_field? right, ihl h.1, ihr h.2,
      binaryNamed_name, bind, Except.bind]

end Expr

end Cascade
