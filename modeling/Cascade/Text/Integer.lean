-- SUMMARY: Integers written in decimal: the grouped form of any script that settings use, and the plain form that documents use.
import Cascade.Text.Blank
import Cascade.Text.Digit

/-! # Written integers

Two notations are read. The **grouped** one, for settings and raw rules, takes
the digits of any script. The **plain** one, for rule documents, takes ASCII
digits and a fraction of zeros. Both allow spaces around the number, a sign,
and single underscores between digits. -/

namespace Cascade.Text

/-! ## Digit groups -/

/-- The digits of a run that may have single underscores between them; `none`
    if the run is empty, starts or ends with an underscore, doubles one, or
    holds anything else. -/
def ungroup? (digit : Char → Bool) : List Char → Option (List Char)
  | [] => none
  | [c] => if digit c then some [c] else none
  | c :: '_' :: cs =>
    if digit c then (ungroup? digit cs).map (c :: ·) else none
  | c :: cs => if digit c then (ungroup? digit cs).map (c :: ·) else none

/-- The sign in front of a number, and what follows it. -/
def splitSign : List Char → Bool × List Char
  | '-' :: cs => (true, cs)
  | '+' :: cs => (false, cs)
  | cs => (false, cs)

/-- A magnitude with a sign. -/
def signed (negative : Bool) (n : Nat) : Int :=
  if negative then -(n : Int) else n

/-! ## The two notations -/

/-- The integer that a text writes in the grouped notation. -/
def groupedInteger? (s : String) : Option Int :=
  let (negative, cs) := splitSign (trim isSpace s.toList)
  (ungroup? isDigit cs).map fun ds => signed negative (digitsValue ds)

/-- The integer that a text writes in the plain notation: `5`, `-5`, `1_000`
    and `5.0` are integers, `5.` and `5.5` are not. -/
def plainInteger? (s : String) : Option Int :=
  let (negative, cs) := splitSign (trim isSpace s.toList)
  let whole := cs.takeWhile (· ≠ '.')
  let fraction := cs.drop whole.length
  if fraction = [] || (1 < fraction.length && fraction.tail.all (· = '0')) then
    (ungroup? Char.isDigit whole).map fun ds => signed negative (digitsValue ds)
  else none

end Cascade.Text
