-- SUMMARY: Reading an expression from text: one reader per level of precedence over the sequence of tokens.
import Cascade.Document.Reader
import Cascade.Expr.Basic
import Cascade.Expr.Token

/-! # Expressions from text

The levels of precedence, the loosest first: `or`, `and`, `not`, one
comparison, sums, products, the minus sign. A reader takes a sequence of
tokens and gives what it read with the tokens after it; each level is built
from the reader of the next one, and the innermost gets the reader of whole
expressions for its parentheses. -/

namespace Cascade

namespace Expr

/-- Why a sequence of tokens was refused: the cause, and where; at the end of
    the source if no position is given. -/
structure Failure where
  cause : Malformation
  position : Option Nat

/-- Takes a sequence of tokens and gives what it read with the rest. -/
abbrev Reader (α : Type) := List Token → Except Failure (α × List Token)

namespace Reader

/-! ## Single tokens -/

/-- The failure that something was wanted in front of the given tokens. -/
def missing (wanted : Expectation) (ts : List Token) : Failure :=
  ⟨.unexpected wanted (ts.head?.map (·.text)), ts.head?.map (·.position)⟩

/-- Fails in front of the given tokens. -/
def expected {α : Type} (wanted : Expectation) : Reader α :=
  fun ts => .error (missing wanted ts)

def isToken (kind : TokenKind) (text : String) (t : Token) : Bool :=
  t.kind = kind && t.text = text

/-- The tokens after a mark, which has to be in front. -/
def afterMark (mark : String) (ts : List Token) : Except Failure (List Token) :=
  match ts with
  | t :: rest =>
    if isToken .punctuation mark t then .ok rest else .error (missing (.token mark) ts)
  | [] => .error (missing (.token mark) [])

/-! ## Literals -/

def escape? : Char → Option Char
  | 'n' => some '\n'
  | 't' => some '\t'
  | '\\' => some '\\'
  | '"' => some '"'
  | '\'' => some '\''
  | _ => none

/-- The characters that the body of a quoted text stands for, given the
    position at which the body starts. A backslash has to have a character to
    escape. -/
def unescape (position : Nat) : List Char → Except Failure (List Char)
  | [] => .ok []
  | ['\\'] => .error ⟨.unexpectedCharacter '\\', some position⟩
  | '\\' :: c :: cs =>
    match escape? c with
    | some e => do return e :: (← unescape (position + 2) cs)
    | none => .error ⟨.unknownEscape c, some (position + 1)⟩
  | c :: cs => do return c :: (← unescape (position + 1) cs)

/-- The text that a token writes between its quotes. -/
def unquoted (t : Token) : Except Failure String := do
  let body := (t.text.toList.drop 1).dropLast
  return String.ofList (← unescape (t.position + 1) body)

def integer (t : Token) : Int := Text.digitsValue t.text.toList

/-- The exponent that a text writes after its letter, zero for no text. -/
def power : List Char → Int
  | _ :: '-' :: ds => -(Text.digitsValue ds : Int)
  | _ :: '+' :: ds | _ :: ds => Text.digitsValue ds
  | [] => 0

/-- The float nearest to the number that a token writes. -/
def real (t : Token) : Float :=
  let cs := t.text.toList
  let whole := cs.takeWhile Text.isDigit
  let (fraction, exponent) :=
    match cs.drop whole.length with
    | '.' :: rest => rest.span Text.isDigit
    | rest => ([], rest)
  floatOfDecimal (Text.digitsValue (whole ++ fraction)) (power exponent - fraction.length)

/-- An item of a list: an integer, one with a minus sign, or a text. -/
def listItem : Reader Document
  | t :: rest =>
    if isToken .operator "-" t then
      match rest with
      | u :: rest =>
        if u.kind = .int then .ok (.int (-(integer u)), rest)
        else expected .listItem (u :: rest)
      | [] => expected .listItem []
    else if t.kind = .int then .ok (.int (integer t), rest)
    else if t.kind = .string then do return (.str (← unquoted t), rest)
    else expected .listItem (t :: rest)
  | [] => expected .listItem []

/-- The items of a list up to its closing bracket, with commas between them.
    The fuel bounds their number. -/
def listItems : Nat → Reader (List Document)
  | 0, ts => expected .listItem ts
  | fuel + 1, ts => do
    let (item, rest) ← listItem ts
    match rest with
    | t :: rest' =>
      if isToken .punctuation "]" t then return ([item], rest')
      else
        let (items, rest'') ← listItems fuel (← afterMark "," rest)
        return (item :: items, rest'')
    | [] => throw (missing (.token ",") [])

/-- A list after its opening bracket, which stands at the given position. All
    its items have to be of one kind. -/
def listAfter (opening : Nat) : Reader Expr := fun ts => do
  let (items, rest) ←
    match ts with
    | t :: rest =>
      if isToken .punctuation "]" t then pure ([], rest) else listItems ts.length ts
    | [] => listItems 1 []
  match Fact.ofBare (.list items) with
  | .ok f => return (literal f, rest)
  | .error _ => throw ⟨.mixedItems, some opening⟩

/-! ## Operators -/

/-- The operators of a chain after its first operand: each takes one more
    operand and groups to the left. The fuel bounds their number. -/
def chainAfter (op? : Token → Option BinaryOp) (operand : Reader Expr) :
    Nat → Expr → Reader Expr
  | 0, left, ts => .ok (left, ts)
  | _ + 1, left, [] => .ok (left, [])
  | fuel + 1, left, t :: ts =>
    match op? t with
    | none => .ok (left, t :: ts)
    | some op => do
      let (right, rest) ← operand ts
      chainAfter op? operand fuel (binary op left right) rest

/-- Operands with operators between them, grouped to the left. -/
def chain (op? : Token → Option BinaryOp) (operand : Reader Expr) : Reader Expr :=
  fun ts => do
    let (left, rest) ← operand ts
    chainAfter op? operand rest.length left rest

/-- Any number of one unary operator in front of an operand. -/
def leading (isOp : Token → Bool) (op : UnaryOp) (operand : Reader Expr) : Reader Expr
  | [] => operand []
  | t :: ts =>
    if isOp t then do
      let (e, rest) ← leading isOp op operand ts
      return (unary op e, rest)
    else operand (t :: ts)

/-- The comparison that a token is. -/
def comparison? (t : Token) : Option BinaryOp :=
  if t.kind = .operator then
    (Comparison.all.map BinaryOp.comparison).find? (·.symbol = t.text)
  else none

/-- The arithmetic operator that a token is, among the given ones. -/
def arithmetic? (among : List Arithmetic) (t : Token) : Option BinaryOp :=
  if t.kind = .operator then
    (among.map BinaryOp.arithmetic).find? (·.symbol = t.text)
  else none

def connective? (op : Connective) (t : Token) : Option BinaryOp :=
  if isToken .keyword op.name t then some (.connective op) else none

/-- One operand, or two with a comparison between them, after which no other
    comparison may follow. -/
def compared (operand : Reader Expr) : Reader Expr := fun ts => do
  let (left, rest) ← operand ts
  match rest with
  | [] => return (left, [])
  | t :: afterOp =>
    match comparison? t with
    | none => return (left, rest)
    | some op =>
      let (right, rest') ← operand afterOp
      if rest'.head?.any fun u => (comparison? u).isSome then
        throw (missing .oneComparison rest')
      else return (binary op left right, rest')

/-! ## Levels -/

/-- A literal, a reference, a list, or an expression in parentheses. -/
def primary (inner : Reader Expr) : Reader Expr
  | [] => expected .value []
  | t :: ts =>
    match t.kind with
    | .int => .ok (literal (.int (integer t)), ts)
    | .float => .ok (literal (.float (real t)), ts)
    | .string => do return (literal (.string (← unquoted t)), ts)
    | .reference => .ok (fact (String.ofList (t.text.toList.drop 1)), ts)
    | .word => .ok (fact t.text, ts)
    | .keyword =>
      if t.text = "true" then .ok (literal (.bool true), ts)
      else if t.text = "false" then .ok (literal (.bool false), ts)
      else expected .value (t :: ts)
    | .punctuation =>
      if t.text = "(" then do
        let (e, rest) ← inner ts
        return (e, ← afterMark ")" rest)
      else if t.text = "[" then listAfter t.position ts
      else expected .value (t :: ts)
    | .operator => expected .value (t :: ts)

/-- Products and quotients. -/
def product (inner : Reader Expr) : Reader Expr :=
  chain (arithmetic? [.mul, .div, .mod])
    (leading (isToken .operator "-") .neg (primary inner))

def sum (inner : Reader Expr) : Reader Expr :=
  chain (arithmetic? [.add, .sub]) (product inner)

/-- A comparison, any number of times negated. -/
def negation (inner : Reader Expr) : Reader Expr :=
  leading (isToken .keyword "not") .not (compared (sum inner))

def conjunction (inner : Reader Expr) : Reader Expr :=
  chain (connective? .and) (negation inner)

def disjunction (inner : Reader Expr) : Reader Expr :=
  chain (connective? .or) (conjunction inner)

/-- Whole expressions, with parentheses nested less deep than the fuel. -/
def expression : Nat → Reader Expr
  | 0 => expected .value
  | depth + 1 => disjunction (expression depth)

end Reader

/-- The expression that a whole sequence of tokens writes. Parentheses cannot
    be nested deeper than there are tokens. -/
def ofTokens (ts : List Token) : Except Failure Expr := do
  if ts.isEmpty then throw (Reader.missing .anything ts)
  let (e, rest) ← Reader.expression (ts.length + 1) ts
  if rest.isEmpty then return e else throw (Reader.missing .nothingMore rest)

def parse (source : String) : Except Fault Expr := do
  let ts ← Tokens.ofSource source
  (ofTokens ts.body).mapError fun failure =>
    .malformed failure.cause (.str source) (failure.position.getD ts.stop)

/-- The expression that a document writes as a text; a list or a record cannot
    even be asked. -/
def parseDocument : Document → Except Fault Expr
  | .str source => parse source
  | .list _ | .dict _ => .error .wrongType
  | d => .error (.malformed .notText (.str d.literal) 0)

end Expr

end Cascade
