-- SUMMARY: The order of rules by priority: the higher first, rules of one priority as they stood, and a fault where a priority is no number.
import Cascade.Rule.Basic

/-! # Precedence

The rules that match an event are applied by priority, the highest first, and
rules of one priority in the order in which they stood. Priorities are compared
by their exact values. Any value may be given for a priority, but only numbers
and truth values can be put in order.

A priority that is not a number comes neither before nor after any other, so
there the outcome depends on which rules are compared: the run at the start is
kept, and every later rule is put into it by halving. -/

namespace Cascade

/-! ## Sorting by comparisons that need not be an order -/

namespace Precedence

variable {α : Type}

/-- How many elements at the start of a list stand in a relation, each to the
    next. -/
def runLength (related : α → α → Bool) : List α → Nat
  | a :: b :: rest => if related a b then runLength related (b :: rest) + 1 else 1
  | xs => xs.length

/-- The list with the run at its start in order, and the length of the run: a
    run in which each element has to come before the one in front of it is
    turned round. -/
def withRun (before : α → α → Bool) (xs : List α) : Nat × List α :=
  let kept := runLength (fun a b => !before b a) xs
  if 1 < kept then (kept, xs)
  else
    let falling := runLength (fun a b => before b a) xs
    (falling, (xs.take falling).reverse ++ xs.drop falling)

/-- Where an element belongs, found by halving: in front of the middle element
    if it comes before it, else behind it. -/
def position (before : α → α → Bool) (x : α) (xs : List α) : Nat :=
  let half := xs.length / 2
  match _h : xs[half]? with
  | none => 0
  | some middle =>
    if before x middle then position before x (xs.take half)
    else half + 1 + position before x (xs.drop (half + 1))
termination_by xs.length
decreasing_by
  all_goals
    have := (List.getElem?_eq_some_iff.1 _h).1
    simp only [List.length_take, List.length_drop]
    omega

def insert (before : α → α → Bool) (xs : List α) (x : α) : List α :=
  let n := position before x xs
  xs.take n ++ x :: xs.drop n

/-- A list in which the run at the start is in order and every later element
    has been put where it belongs. -/
def halving (before : α → α → Bool) (xs : List α) : List α :=
  let (n, xs) := withRun before xs
  (xs.drop n).foldl (insert before) (xs.take n)

end Precedence

/-! ## Ranks -/

namespace Rule

/-- What the priority of a rule counts as. -/
def rank (r : Rule) : Except Fault Exact :=
  match r.priority.exactValue? with
  | some v => .ok v
  | none => .error .wrongType

def ranked (r : Rule) : Except Fault (Exact × Rule) := do return (← r.rank, r)

def outranks (a b : Exact × Rule) : Bool := a.1.compare? b.1 = some .gt

def sorted (rules : List (Exact × Rule)) : List (Exact × Rule) :=
  if rules.any (·.1 = .nan) then Precedence.halving outranks rules
  else rules.mergeSort fun a b => !outranks b a

/-- Rules in the order in which they are applied. -/
def inOrder (rules : List Rule) : Except Fault (List Rule) := do
  return (sorted (← rules.mapM ranked)).map (·.2)

end Rule

end Cascade
