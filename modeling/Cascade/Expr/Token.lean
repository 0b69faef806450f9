-- SUMMARY: The tokens of an expression: their classes, how far each reaches, and a text as the sequence of its tokens.
import Cascade.Fault
import Cascade.Text.Blank
import Cascade.Text.Digit

/-! # Tokens

A text is cut into **lexemes** from left to right; runs of blanks separate
tokens and are no tokens themselves. The first character of a lexeme decides
its class, the number classes apart, and how many characters belong to it
beyond the first is counted on the text that follows, so every lexeme is at
least one character long. -/

namespace Cascade

inductive TokenKind where
  | float | int | string | reference | word | operator | punctuation | keyword
  deriving DecidableEq, Repr

def TokenKind.name : TokenKind → String
  | float => "float"
  | int => "int"
  | string => "string"
  | reference => "fact"
  | word => "ident"
  | operator => "op"
  | punctuation => "punct"
  | keyword => "keyword"

/-- A token: its class, its text and where in the source it starts. -/
structure Token where
  kind : TokenKind
  text : String
  position : Nat
  deriving DecidableEq, Repr

/-- The tokens of a source and the position at which the source ends. -/
structure Tokens where
  body : List Token
  stop : Nat
  deriving DecidableEq, Repr

/-! ## Lexemes -/

/-- A piece of a text: a token of a class, or a run of blanks; and how many
    characters it has after its first. -/
structure Lexeme where
  kind : Option TokenKind
  tail : Nat
  deriving DecidableEq, Repr

namespace Lexeme

def startsName (c : Char) : Bool := c.isAlpha || c = '_'

def insideName (c : Char) : Bool := c.isAlphanum || c = '_' || c = '.' || c = ':'

/-- The length of the run of characters of a class in front of a text. -/
def run (p : Char → Bool) (cs : List Char) : Nat := (cs.takeWhile p).length

/-- The length of the exponent in front of a text, zero if there is none: a
    letter, a sign or none, and at least one digit. -/
def exponent : List Char → Nat
  | c :: '+' :: cs | c :: '-' :: cs =>
    let n := run Text.isDigit cs
    if (c = 'e' || c = 'E') && 0 < n then n + 2 else 0
  | c :: cs =>
    let n := run Text.isDigit cs
    if (c = 'e' || c = 'E') && 0 < n then n + 1 else 0
  | [] => 0

/-- A number, given the text after its first digit. -/
def number (cs : List Char) : Lexeme :=
  let whole := run Text.isDigit cs
  match cs.drop whole with
  | '.' :: rest =>
    let fraction := run Text.isDigit rest
    ⟨some .float, whole + 1 + fraction + exponent (rest.drop fraction)⟩
  | rest =>
    let power := exponent rest
    ⟨some (if 0 < power then .float else .int), whole + power⟩

/-- A number that starts with its point, given the text after the point. -/
def fraction? (cs : List Char) : Option Lexeme :=
  let n := run Text.isDigit cs
  if 0 < n then some ⟨some .float, n + exponent (cs.drop n)⟩ else none

/-- How many characters a quoted text has after its opening quote. A backslash
    takes the next character with it, which must not be a line feed. -/
def quotedTail? (quote : Char) : List Char → Option Nat
  | [] => none
  | '\\' :: c :: cs => if c = '\n' then none else (quotedTail? quote cs).map (· + 2)
  | c :: cs =>
    if c = quote then some 1
    else if c = '\\' then none
    else (quotedTail? quote cs).map (· + 1)

/-- A reference, given the text after its dollar sign. -/
def reference? : List Char → Option Lexeme
  | c :: cs =>
    if startsName c then some ⟨some .reference, 1 + run insideName cs⟩ else none
  | [] => none

def isPair (c d : Char) : Bool :=
  (d = '=' && (c = '<' || c = '>' || c = '=' || c = '!'))
    || (c = '&' && d = '&') || (c = '|' && d = '|')

def isSingle (c : Char) : Bool := "-+*/%<>!".toList.contains c

/-- An operator, given its first character and the text after it. -/
def operator? (c : Char) (cs : List Char) : Option Lexeme :=
  if cs.head?.any (isPair c) then some ⟨some .operator, 1⟩
  else if isSingle c then some ⟨some .operator, 0⟩
  else none

/-- The lexeme in front of a text, given the first character and the text
    after it; `none` if none starts there. -/
def first? (c : Char) (cs : List Char) : Option Lexeme :=
  if Text.isBlank c then some ⟨none, run Text.isBlank cs⟩
  else if Text.isDigit c then some (number cs)
  else if c = '.' then fraction? cs
  else if c = '"' || c = '\'' then (quotedTail? c cs).map fun n => ⟨some .string, n⟩
  else if c = '$' then reference? cs
  else if startsName c then some ⟨some .word, run insideName cs⟩
  else if "()[],".toList.contains c then some ⟨some .punctuation, 0⟩
  else operator? c cs

end Lexeme

/-! ## Tokens of a text -/

namespace Token

/-- The words that are no names, whatever the case of their letters. -/
def keywords : List String := ["and", "or", "not", "true", "false"]

/-- The keyword that an operator is another spelling of. -/
def spelledOut? : String → Option String
  | "&&" => some "and"
  | "||" => some "or"
  | "!" => some "not"
  | _ => none

/-- The token of a class with the given text: keywords in any spelling become
    keywords in the plain one. -/
def ofSlice (kind : TokenKind) (slice : String) (position : Nat) : Token :=
  let lowered := slice.toLower
  match kind, spelledOut? slice with
  | .word, _ =>
    if lowered ∈ keywords then ⟨.keyword, lowered, position⟩ else ⟨.word, slice, position⟩
  | .operator, some word => ⟨.keyword, word, position⟩
  | _, _ => ⟨kind, slice, position⟩

/-- The tokens of a text that starts at a position; the error is the first
    character with which no lexeme starts, and its position. -/
def scan (position : Nat) (cs : List Char) : Except (Malformation × Nat) (List Token) :=
  match cs with
  | [] => .ok []
  | c :: cs =>
    match Lexeme.first? c cs with
    | none => .error (.unexpectedCharacter c, position)
    | some ⟨kind?, n⟩ => do
      let rest ← scan (position + 1 + n) (cs.drop n)
      match kind? with
      | some kind =>
        return ofSlice kind (String.ofList (c :: cs.take n)) position :: rest
      | none => return rest
termination_by cs.length
decreasing_by simp only [List.length_drop, List.length_cons]; omega

end Token

namespace Tokens

def ofChars (cs : List Char) : Except (Malformation × Nat) Tokens := do
  return ⟨← Token.scan 0 cs, cs.length⟩

/-- The tokens of a source; a fault names the source. -/
def ofSource (source : String) : Except Fault Tokens :=
  (ofChars source.toList).mapError fun (cause, position) =>
    .malformed cause (.str source) position

/-- Every token with its class, text and position, and at last the end of the
    source. -/
def listing (ts : Tokens) : List (String × String × Nat) :=
  ts.body.map (fun t => (t.kind.name, t.text, t.position)) ++ [("eof", "", ts.stop)]

end Tokens

end Cascade
