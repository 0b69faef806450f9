-- SUMMARY: Expressions read by an index into their tokens, where every look-up and every conversion that could go wrong does so.
import Cascade.Expr.Parse

/-! # Reading by index

The readers of expressions take tokens off a list, and where there is none they
have a refusal to give. The readers here hold an index into the tokens instead,
with the end of the source behind the last one, and they trust nothing that they
are given: a token behind the end, an escape behind the body of its text, digits
that write no number, a list that is no fact, a reference without a name and a
reading without an end are **mishaps**, which nobody who wrote the source can be
told about. -/

namespace Cascade

namespace Expr

/-- What must not happen when an expression is read. -/
inductive Mishap where
  | pastEnd
  | pastBody
  | noNumber
  | noFact
  | noKey
  | endless
  deriving DecidableEq, Repr

/-- How a reading ends that gives nothing: the source is refused at a position, or
    the reading itself went wrong. -/
inductive Halt where
  | refused (cause : Malformation) (position : Nat)
  | failed (mishap : Mishap)

/-- Reads from an index on and gives what it read with the index after it. -/
abbrev Cursor (α : Type) := Nat → Except Halt (α × Nat)

namespace Cursor

open Reader (isToken comparison? arithmetic? connective?)

/-! ## Conversions -/

/-- The characters that the body of a quoted text stands for, given the position
    at which the body starts. -/
def unescape (position : Nat) : List Char → Except Halt (List Char)
  | [] => .ok []
  | ['\\'] => .error (.failed .pastBody)
  | '\\' :: c :: cs =>
    match Reader.escape? c with
    | some e => do return e :: (← unescape (position + 2) cs)
    | none => .error (.refused (.unknownEscape c) (position + 1))
  | c :: cs => do return c :: (← unescape (position + 1) cs)

def unquoted (t : Token) : Except Halt String := do
  return String.ofList (← unescape (t.position + 1) (t.text.toList.drop 1).dropLast)

/-- Whether a text writes an integer: at least one digit, and nothing else. -/
def writesInteger (cs : List Char) : Bool := !cs.isEmpty && cs.all Text.isDigit

def integer (t : Token) : Except Halt Int :=
  if writesInteger t.text.toList then .ok (Reader.integer t) else .error (.failed .noNumber)

/-- Whether a text writes the exponent of a float, or is empty: a letter, a sign or
    none, and at least one digit. -/
def writesPower : List Char → Bool
  | [] => true
  | c :: '+' :: ds | c :: '-' :: ds | c :: ds => (c = 'e' || c = 'E') && writesInteger ds

/-- Whether a text writes a float: digits, perhaps a point and more digits, at least
    one digit in front of the exponent, and perhaps an exponent. -/
def writesFloat (cs : List Char) : Bool :=
  let startsWell (ds : List Char) := ds.head?.any Text.isDigit
  match cs.dropWhile Text.isDigit with
  | '.' :: rest => (startsWell cs || startsWell rest) && writesPower (rest.dropWhile Text.isDigit)
  | rest => startsWell cs && writesPower rest

def real (t : Token) : Except Halt Float :=
  if writesFloat t.text.toList then .ok (Reader.real t) else .error (.failed .noNumber)

def reference (name : String) : Except Halt Expr :=
  if name = "" then .error (.failed .noKey) else .ok (.fact (.name name))

/-- Whether some items are integers and others are texts. -/
def isMixed (items : List Document) : Bool :=
  items.any (·.int?.isSome) && items.any (·.text?.isSome)

/-- The list that items make, which opens at the given position. -/
def listOf (opening : Nat) (items : List Document) : Except Halt Expr :=
  if isMixed items then .error (.refused .mixedItems opening)
  else
    match Fact.ofBare (.list items) with
    | .ok f => .ok (literal f)
    | .error _ => .error (.failed .noFact)

section Tokens

variable (ts : Tokens)

/-! ## Single tokens -/

/-- The token at an index, none at the end of the source. -/
def look (i : Nat) : Except Halt (Option Token) :=
  if i ≤ ts.body.length then .ok ts.body[i]? else .error (.failed .pastEnd)

/-- Whether the token at an index is of some sort. -/
def has (sort : Token → Bool) (i : Nat) : Except Halt Bool := do
  return (← look ts i).any sort

/-- Refuses the token at an index. -/
def expected {α : Type} (wanted : Expectation) (i : Nat) : Except Halt α := do
  match ← look ts i with
  | some t => .error (.refused (.unexpected wanted (some t.text)) t.position)
  | none => .error (.refused (.unexpected wanted none) ts.stop)

/-- The index after a mark, which has to be there. -/
def afterMark (mark : String) (i : Nat) : Except Halt Nat := do
  if ← has ts (isToken .punctuation mark) i then return i + 1
  else expected ts (.token mark) i

/-! ## Lists -/

def listItem : Cursor Document := fun i => do
  let negative ← has ts (isToken .operator "-") i
  let i := if negative then i + 1 else i
  match ← look ts i with
  | some t =>
    if t.kind = .int then do
      let n ← integer t
      return (.int (if negative then -n else n), i + 1)
    else if t.kind = .string && !negative then do return (.str (← unquoted t), i + 1)
    else expected ts .listItem i
  | none => expected ts .listItem i

/-- The items of a list up to its closing bracket. -/
def listItems : Nat → Cursor (List Document)
  | 0, _ => .error (.failed .endless)
  | fuel + 1, i => do
    let (item, i) ← listItem ts i
    if ← has ts (isToken .punctuation "]") i then return ([item], i + 1)
    let (items, i) ← listItems fuel (← afterMark ts "," i)
    return (item :: items, i)

/-- A list after its opening bracket, which stands at the given position. -/
def listAfter (opening : Nat) : Cursor Expr := fun i => do
  if ← has ts (isToken .punctuation "]") i then return (← listOf opening [], i + 1)
  else
    let (items, i) ← listItems ts (ts.body.length + 1) i
    return (← listOf opening items, i)

/-! ## Operators -/

/-- The operators of a chain after its first operand. -/
def chainAfter (op? : Token → Option BinaryOp) (operand : Cursor Expr) : Nat → Expr → Cursor Expr
  | 0, _, _ => .error (.failed .endless)
  | fuel + 1, left, i => do
    match (← look ts i).bind op? with
    | none => return (left, i)
    | some op => do
      let (right, i) ← operand (i + 1)
      chainAfter op? operand fuel (binary op left right) i

/-- Operands with operators between them, grouped to the left. -/
def chain (op? : Token → Option BinaryOp) (operand : Cursor Expr) : Cursor Expr := fun i => do
  let (left, i) ← operand i
  chainAfter ts op? operand (ts.body.length + 1) left i

/-- Any number of one unary operator in front of an operand. -/
def leadingIn (isOp : Token → Bool) (op : UnaryOp) (operand : Cursor Expr) : Nat → Cursor Expr
  | 0, _ => .error (.failed .endless)
  | fuel + 1, i => do
    if ← has ts isOp i then
      let (e, i) ← leadingIn isOp op operand fuel (i + 1)
      return (unary op e, i)
    else operand i

def leading (isOp : Token → Bool) (op : UnaryOp) (operand : Cursor Expr) : Cursor Expr :=
  leadingIn ts isOp op operand (ts.body.length + 1)

/-- One operand, or two with a comparison between them, after which no other
    comparison may follow. -/
def compared (operand : Cursor Expr) : Cursor Expr := fun i => do
  let (left, i) ← operand i
  match (← look ts i).bind comparison? with
  | none => return (left, i)
  | some op => do
    let (right, i) ← operand (i + 1)
    if ← has ts (fun t => (comparison? t).isSome) i then expected ts .oneComparison i
    else return (binary op left right, i)

/-! ## Levels -/

/-- A literal, a reference, a list, or an expression in parentheses. -/
def primary (inner : Cursor Expr) : Cursor Expr := fun i => do
  match ← look ts i with
  | none => expected ts .value i
  | some t =>
    match t.kind with
    | .int => return (literal (.int (← integer t)), i + 1)
    | .float => return (literal (.float (← real t)), i + 1)
    | .string => return (literal (.string (← unquoted t)), i + 1)
    | .reference => return (← reference (String.ofList (t.text.toList.drop 1)), i + 1)
    | .word => return (← reference t.text, i + 1)
    | .keyword =>
      if t.text = "true" then return (literal (.bool true), i + 1)
      else if t.text = "false" then return (literal (.bool false), i + 1)
      else expected ts .value i
    | .punctuation =>
      if t.text = "(" then do
        let (e, i) ← inner (i + 1)
        return (e, ← afterMark ts ")" i)
      else if t.text = "[" then listAfter ts t.position (i + 1)
      else expected ts .value i
    | .operator => expected ts .value i

def product (inner : Cursor Expr) : Cursor Expr :=
  chain ts (arithmetic? [.mul, .div, .mod])
    (leading ts (isToken .operator "-") .neg (primary ts inner))

def sum (inner : Cursor Expr) : Cursor Expr :=
  chain ts (arithmetic? [.add, .sub]) (product ts inner)

def negation (inner : Cursor Expr) : Cursor Expr :=
  leading ts (isToken .keyword "not") .not (compared ts (sum ts inner))

def conjunction (inner : Cursor Expr) : Cursor Expr :=
  chain ts (connective? .and) (negation ts inner)

def disjunction (inner : Cursor Expr) : Cursor Expr :=
  chain ts (connective? .or) (conjunction ts inner)

/-- Whole expressions, with parentheses nested less deep than the fuel. -/
def expression : Nat → Cursor Expr
  | 0 => fun _ => .error (.failed .endless)
  | depth + 1 => disjunction ts (expression depth)

/-- The expression that all tokens together write. -/
def whole : Except Halt Expr := do
  if (← look ts 0).isNone then expected ts .anything 0
  else
    let (e, i) ← expression ts (ts.body.length + 1) 0
    if (← look ts i).isNone then return e else expected ts .nothingMore i

end Tokens

def parse (source : String) : Except Halt Expr :=
  match Tokens.ofChars source.toList with
  | .ok ts => whole ts
  | .error (cause, position) => .error (.refused cause position)

end Cursor

end Expr

end Cascade
