-- SUMMARY: Kinds of expressions: which kind the value of an expression has is told by the kinds of the facts that it refers to, whatever their values are.
import Cascade.Proofs.Condition.Formula
import Cascade.Proofs.Expr.References

/-! # Kinds of expressions

The kind of an expression can be worked out from the kinds of the facts, without
their values. Two texts are joined to a text, integers stay integers, and any other
numbers come to a float; comparisons and connectives come to truth values, whether
or not they get to their right operand. Nothing is said of an expression that has
no value. -/

namespace Cascade

namespace Kind

/-- The kind of what an operator makes of facts of two kinds, if it makes anything
    of them. -/
def combined : Kind → Kind → Kind
  | int, int => int
  | string, string => string
  | _, _ => float

theorem combined_numeric {k l : Kind} (first : k.isNumeric) (second : l.isNumeric)
    (mixed : ¬(k = int ∧ l = int)) : k.combined l = float := by
  cases k <;> cases l <;> simp_all [isNumeric, combined]

end Kind

namespace Fact

variable {l r f : Fact}

theorem kind_ofResult (x : Float) : (ofResult x).kind = .float := by
  unfold ofResult
  split <;> rfl

theorem kind_negate (h : l.negate = .ok f) : f.kind = l.kind := by
  cases l with
  | int n | indeterminate b =>
    cases h
    rfl
  | float x =>
    cases h
    exact kind_ofResult (-x)
  | bool | string | intList | stringList => cases h

theorem kind_floatArithmetic {op : Float → Float → Float} (h : floatArithmetic op l r = .ok f) :
    f.kind = .float := by
  obtain ⟨x, -, h⟩ := exists_of_bind_ok h
  obtain ⟨y, -, h⟩ := exists_of_bind_ok h
  cases h
  exact kind_ofResult (op x y)

theorem kind_arithmetic {op : Arithmetic} (h : arithmetic op l r = .ok f) :
    f.kind = l.kind.combined r.kind := by
  unfold arithmetic at h
  split at h
  case h_1 =>
    cases h
    rfl
  case h_2 =>
    split at h
    case isTrue => cases h
    case isFalse numeric =>
      simp only [Bool.or_eq_true, Bool.not_eq_true', not_or, Bool.not_eq_false] at numeric
      have float (mixed : ∀ a b, l = int a → r = int b → False) :
          l.kind.combined r.kind = .float := by
        refine Kind.combined_numeric numeric.1 numeric.2 ?_
        rintro ⟨first, second⟩
        cases l <;> cases first
        cases r <;> cases second
        exact mixed _ _ rfl rfl
      split at h
      case h_1 | h_6 =>
        split at h
        · cases h
        · cases h
          rfl
      case h_2 => cases h
      case h_3 | h_4 | h_5 =>
        cases h
        rfl
      case h_7 mixed | h_8 mixed | h_9 mixed =>
        exact (kind_floatArithmetic h).trans (float mixed).symm
      case h_10 mixed =>
        split at h
        · cases h
        · exact (kind_floatArithmetic h).trans (float mixed).symm

end Fact

/-! ## Readings -/

namespace Reading

/-- The kind of the fact that a key reads as, if it reads as one. -/
def kind? (read : Reading) (k : Key) : Option Kind :=
  match read k with
  | .ok content => content.map Fact.kind
  | .error _ => none

/-- Whether what a key reads as has the kind that is given for the key, if it reads
    as a fact at all. -/
def Fits (read : Reading) (kinds : Key → Option Kind) (k : Key) : Prop :=
  ∀ kind, read.kind? k = some kind → kinds k = some kind

/-- Whether what a key reads as under two readings has one kind, if it reads as a fact
    under both. -/
def AlikeAt (read read' : Reading) (k : Key) : Prop :=
  ∀ f f', read k = .ok (some f) → read' k = .ok (some f') → f.kind = f'.kind

variable {read read' : Reading} {k : Key}

theorem kind?_of_ok {f : Fact} (h : read k = .ok (some f)) : read.kind? k = some f.kind := by
  simp only [kind?, h, Option.map_some]

theorem exists_of_kind? {kind : Kind} (h : read.kind? k = some kind) :
    ∃ f, read k = .ok (some f) ∧ f.kind = kind := by
  unfold kind? at h
  split at h
  case h_1 content found =>
    obtain ⟨f, rfl, same⟩ := Option.map_eq_some_iff.mp h
    exact ⟨f, found, same⟩
  case h_2 => cases h

/-- Kinds that fit two readings at once: those under the first, then those under the
    second. -/
def kinds (read read' : Reading) (k : Key) : Option Kind := (read.kind? k).or (read'.kind? k)

theorem fits_kinds_left : read.Fits (kinds read read') k := by
  intro kind h
  simp only [kinds, h, Option.some_or]

theorem fits_kinds_right (alike : AlikeAt read read' k) : read'.Fits (kinds read read') k := by
  intro kind h
  cases first : read.kind? k with
  | none => simp only [kinds, first, h, Option.none_or]
  | some kind' =>
    obtain ⟨f, found, rfl⟩ := exists_of_kind? first
    obtain ⟨f', found', rfl⟩ := exists_of_kind? h
    simp only [kinds, first, Option.some_or, alike f f' found found']

end Reading

/-! ## Expressions -/

namespace Expr

/-- The kind that an expression has if it has a value, given the kinds of the facts. -/
def kind? (kinds : Key → Option Kind) : Expr → Option Kind
  | literal f => some f.kind
  | fact k => kinds k
  | unary .neg e => e.kind? kinds
  | unary .not _ => some .bool
  | binary (.arithmetic _) l r => do return (← l.kind? kinds).combined (← r.kind? kinds)
  | binary (.comparison _) _ _ | binary (.connective _) _ _ => some .bool

variable {e : Expr} {read read' : Reading} {kinds : Key → Option Kind} {f f' : Fact}

theorem fetch_eq_ok {k : Key} (h : fetch read k = .ok f) : read k = .ok (some f) := by
  obtain ⟨content, found, h⟩ := exists_of_bind_ok h
  cases content with
  | none => cases h
  | some g =>
    cases h
    exact found

/-- A connective has a truth value for its value, from whichever operand it is. -/
theorem kind_connective {op : Connective} {l r : Expr}
    (h : (binary (.connective op) l r).eval read = .ok f) : f.kind = .bool := by
  rw [eval_connective] at h
  generalize op.gather _ = verdict at h
  cases verdict with
  | error g => cases h
  | ok b =>
    cases h
    rfl

/-- The value of an expression has the kind that was worked out for it. -/
theorem kind?_of_eval (fits : ∀ k ∈ e.keys, read.Fits kinds k) (h : e.eval read = .ok f) :
    e.kind? kinds = some f.kind := by
  induction e generalizing f with
  | literal g =>
    cases h
    rfl
  | fact k => exact fits k (List.mem_singleton_self k) _ (Reading.kind?_of_ok (fetch_eq_ok h))
  | unary op e ih =>
    obtain ⟨a, operand, h⟩ := exists_of_bind_ok h
    cases op with
    | neg => exact (ih fits operand).trans (congrArg some (Fact.kind_negate h).symm)
    | not =>
      obtain ⟨b, -, h⟩ := exists_of_bind_ok h
      cases h
      rfl
  | binary op l r ihl ihr =>
    obtain ⟨fitsl, fitsr⟩ := List.forall_mem_append.mp fits
    cases op with
    | arithmetic op =>
      obtain ⟨a, left, h⟩ := exists_of_bind_ok h
      obtain ⟨b, right, h⟩ := exists_of_bind_ok h
      rw [kind?, ihl fitsl left, ihr fitsr right, Fact.kind_arithmetic h]
      rfl
    | comparison op =>
      obtain ⟨a, -, h⟩ := exists_of_bind_ok h
      obtain ⟨b, -, h⟩ := exists_of_bind_ok h
      obtain ⟨c, -, h⟩ := exists_of_bind_ok h
      cases h
      rfl
    | connective op => rw [kind_connective h, kind?]

/-- Two readings under which the references of an expression have the same kinds
    give it values of one kind, if they give it values. What the facts are may differ,
    and so may the operands that connectives get to. -/
theorem kind_determined (alike : ∀ k, e.Lists k → Reading.AlikeAt read read' k)
    (h : e.eval read = .ok f) (h' : e.eval read' = .ok f') : f.kind = f'.kind := by
  have listed {k : Key} (mem : k ∈ e.keys) : e.Lists k := lists_iff.mpr (mem_keys.mp mem)
  have kind : e.kind? (Reading.kinds read read') = some f.kind :=
    kind?_of_eval (fun k _ => Reading.fits_kinds_left) h
  have kind' : e.kind? (Reading.kinds read read') = some f'.kind :=
    kind?_of_eval (fun k mem => Reading.fits_kinds_right (alike k (listed mem))) h'
  exact Option.some.inj (kind.symm.trans kind')

namespace Harvest

/-- What is left of a harvest after the tithe, or nothing to speak of. -/
def rest : Expr :=
  .binary (.connective .or)
    (.binary (.comparison .gt)
      (.binary (.arithmetic .sub) (.fact (.name "grain"))
        (.binary (.arithmetic .div) (.fact (.name "grain")) (.fact (.name "tithe"))))
      (.literal (.int 20)))
    (.unary .not (.fact (.name "drought")))

/-- A year with some grain, one part in ten of which is owed. -/
def year (grain : Int) (drought : Bool) : Reading
  | .name "grain" => .ok (some (.int grain))
  | .name "tithe" => .ok (some (.int 10))
  | .name "drought" => .ok (some (.bool drought))
  | _ => .ok none

/-- In a good year nobody asks about the drought, in a bad one the answer decides. The
    answers differ, and both are truth values. -/
theorem rest_kind :
    rest.eval (year 40 true) = .ok (.bool true) ∧ rest.eval (year 4 true) = .ok (.bool false) ∧
      (∀ k, rest.Lists k → Reading.AlikeAt (year 40 true) (year 4 true) k) ∧
      (Fact.bool true).kind = (Fact.bool false).kind := by
  have good : rest.eval (year 40 true) = .ok (.bool true) := rfl
  have bad : rest.eval (year 4 true) = .ok (.bool false) := rfl
  have alike (k : Key) (h : rest.Lists k) : Reading.AlikeAt (year 40 true) (year 4 true) k := by
    have mem : k ∈ [.name "grain", .name "grain", .name "tithe", .name "drought"] :=
      mem_keys.mpr (lists_iff.mp h)
    simp only [List.mem_cons, List.not_mem_nil, or_false] at mem
    rcases mem with rfl | rfl | rfl | rfl
    all_goals
      rintro f f' ⟨⟩ ⟨⟩
      rfl
  exact ⟨good, bad, alike, kind_determined alike good bad⟩

end Harvest

end Expr

end Cascade
