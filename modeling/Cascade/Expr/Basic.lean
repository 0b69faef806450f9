-- SUMMARY: Expressions: constants, references to facts, negation, arithmetic, comparison and the connectives, with their text, their documents and the keys they refer to.
import Cascade.Fact.Arithmetic

/-! # Expressions

An expression computes a fact from constants and from the facts it refers to.
The text of an expression writes every binary operator in parentheses and the
operand of every unary one, so it shows the grouping. -/

namespace Cascade

inductive UnaryOp where
  | neg | not
  deriving DecidableEq, Repr

/-- The connectives of truth values. -/
inductive Connective where
  | and | or
  deriving DecidableEq, Repr

inductive BinaryOp where
  | arithmetic (op : Arithmetic)
  | comparison (op : Comparison)
  | connective (op : Connective)
  deriving DecidableEq, Repr

inductive Expr where
  | literal (value : Fact)
  | fact (key : Key)
  | unary (op : UnaryOp) (operand : Expr)
  | binary (op : BinaryOp) (left right : Expr)

/-! ## Operators and their names -/

namespace UnaryOp

def name : UnaryOp → String
  | neg => "neg"
  | not => "not"

/-- What the text of an expression writes in front of the operand. -/
def symbol : UnaryOp → String
  | neg => "-"
  | not => "not "

def all : List UnaryOp := [neg, not]

def ofName? (s : String) : Option UnaryOp := all.find? (·.name = s)

end UnaryOp

def Connective.name : Connective → String
  | and => "and"
  | or => "or"

namespace BinaryOp

def name : BinaryOp → String
  | arithmetic op => op.name
  | comparison op => op.name
  | connective op => op.name

def symbol : BinaryOp → String
  | arithmetic .add => "+"
  | arithmetic .sub => "-"
  | arithmetic .mul => "*"
  | arithmetic .div => "/"
  | arithmetic .mod => "%"
  | comparison .lt => "<"
  | comparison .le => "<="
  | comparison .gt => ">"
  | comparison .ge => ">="
  | comparison .eq => "=="
  | comparison .ne => "!="
  | connective .and => "and"
  | connective .or => "or"

def all : List BinaryOp :=
  Arithmetic.all.map arithmetic ++ Comparison.all.map comparison
    ++ [connective .and, connective .or]

def ofName? (s : String) : Option BinaryOp := all.find? (·.name = s)

end BinaryOp

/-! ## Text, documents and references -/

namespace Expr

def text : Expr → String
  | literal v => v.text
  | fact k => "$" ++ k.plain
  | unary op e => op.symbol ++ "(" ++ e.text ++ ")"
  | binary op l r => "(" ++ l.text ++ " " ++ op.symbol ++ " " ++ r.text ++ ")"

def toDocument : Expr → Document
  | literal v => .dict [("kind", .str "literal"), ("value", v.toDocument)]
  | fact k => .dict [("kind", .str "fact"), ("key", k.toDocument)]
  | unary op e =>
    .dict [("kind", .str "unary"), ("op", .str op.name), ("operand", e.toDocument)]
  | binary op l r =>
    .dict [("kind", .str "binary"), ("op", .str op.name), ("left", l.toDocument),
      ("right", r.toDocument)]

/-- The keys that an expression refers to, from left to right, as often as it
    does. -/
def keys : Expr → List Key
  | literal _ => []
  | fact k => [k]
  | unary _ e => e.keys
  | binary _ l r => l.keys ++ r.keys

/-- Adds a key at the end of a list that does not have it yet. -/
def insertKey (seen : List Key) (k : Key) : List Key :=
  if seen.any (·.same k) then seen else seen ++ [k]

/-- The keys that an expression refers to, each once, in the order of first
    use. -/
def refs (e : Expr) : List Key := e.keys.foldl insertKey []

end Expr

end Cascade
